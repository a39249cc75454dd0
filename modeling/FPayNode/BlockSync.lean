import FPayNode.BlockChain

/-!
`FPService::queryBlockChain`, from which a peer gets the blocks that come after
the one it knows.
-/

namespace FPayNode.BlockSync

open CommandProgram DecimalText RedisServer RedisCache Messages NodeService
open BlockRounds BlockChain LinkedRecords CerealJson

section Query
variable (config : Config) (cereal : Cereal)

/-- The loop; none when there are blocks left. -/
def queryLoop (memory : Nat → Uninitialized) : Nat → Bytes → List Block →
    Calls (Option (List Block))
  | 0, _, _ => pure none
  | reads + 1, blockId, blockList =>
      if blockId.isEmpty then pure (some blockList)
      else do
        let (found, block) ← getBlock config cereal blockId (Block.fresh (memory reads))
        if !found then pure (some blockList)
        else queryLoop memory reads block._next (blockList ++ [block])

/-- It always returns true; the list is its out-parameter. -/
def queryBlockChain (memory : Nat → Uninitialized) (reads : Nat) (fromBlockId : Bytes)
    (blockList : List Block) : Calls (Option (Bool × List Block)) := do
  let (found, lastBlock) ← getBlock config cereal fromBlockId (Block.fresh (memory reads))
  let blockId := if found then lastBlock._next else []
  let blocks ← queryLoop config cereal memory reads blockId blockList
  pure (blocks.map fun blockList => (true, blockList))

theorem queryLoop_issues (holds : Effect → Prop) (memory : Nat → Uninitialized) (reads : Nat)
    (blockId : Bytes) (blockList : List Block)
    (read : ∀ key, holds (.redis config.dbService (.get key))) :
    (queryLoop config cereal memory reads blockId blockList).Issues holds := by
  induction reads generalizing blockId blockList with
  | zero => exact trivial
  | succ reads ih =>
      simp only [queryLoop]
      split
      · exact trivial
      · apply Program.issues_bind
        · exact BlockCreation.getBlock_issues config cereal holds _ _ (read _)
        · rintro ⟨found, block⟩
          dsimp only
          split
          · exact trivial
          · exact ih _ _

/-- It only reads blocks. -/
theorem queryBlockChain_issues (holds : Effect → Prop) (memory : Nat → Uninitialized) (reads : Nat)
    (fromBlockId : Bytes) (blockList : List Block)
    (read : ∀ key, holds (.redis config.dbService (.get key))) :
    (queryBlockChain config cereal memory reads fromBlockId blockList).Issues holds := by
  refine Program.issues_bind holds _ _
    (BlockCreation.getBlock_issues config cereal holds _ _ (read _)) ?_
  rintro ⟨found, lastBlock⟩
  exact Program.issues_bind holds _ _
    (queryLoop_issues config cereal holds _ _ _ _ read) fun _ => trivial

/-- A load that succeeds fills every member. -/
def Fills {Message : Type} (codec : Codec Message) : Prop :=
  ∀ text old other, (codec.fromString text old).1 = true →
    codec.fromString text other = codec.fromString text old

/-- The block stored under a key; none when there is no record that loads. -/
def blockAt (servers : Servers) (key : Bytes) : Option Block :=
  returned (cereal.block.fromString (storedText config servers key) (Block.fresh ⟨0, 0⟩))

variable (throws : Bytes → Bool) (servers : Servers)

theorem blockAt_present (lawful : cereal.Lawful) (key : Bytes)
    (present : blockAt config cereal servers key ≠ none) :
    key ≠ [] ∧ key ∈ (servers config.dbService).keys := by
  have text : storedText config servers key ≠ [] := by
    intro empty
    simp [blockAt, empty, lawful.block.nothing, returned] at present
  simp only [storedText] at text
  split at text
  · exact absurd rfl text
  · next named =>
      refine ⟨named, Finmap.mem_keys.mpr (Finmap.mem_iff.mpr ?_)⟩
      cases found : (servers config.dbService).lookup key with
      | none => simp [found] at text
      | some value => exact ⟨value, rfl⟩

variable (lawful : cereal.Lawful) (fills : Fills cereal.block)

section Reads
include fills

theorem run_getBlock_some (key : Bytes) (block : Block) (memory : Uninitialized)
    (stored : blockAt config cereal servers key = some block) :
    run (serve throws) (getBlock config cereal key (Block.fresh memory)) servers =
      ((true, block), servers) := by
  simp only [blockAt, returned] at stored
  split at stored
  · next loads =>
      have value := Option.some.inj stored
      rw [run_getBlock, fills _ _ (Block.fresh memory) loads]
      exact congrArg (·, servers) (Prod.ext loads value)
  · cases stored

theorem run_getBlock_none (key : Bytes) (memory : Uninitialized)
    (absent : blockAt config cereal servers key = none) :
    ∃ block, run (serve throws) (getBlock config cereal key (Block.fresh memory)) servers =
      ((false, block), servers) := by
  have refused : (cereal.block.fromString (storedText config servers key)
      (Block.fresh memory)).1 = false := by
    by_contra loads
    rw [Bool.not_eq_false] at loads
    have again := fills _ _ (Block.fresh ⟨0, 0⟩) loads
    simp [blockAt, returned, again, loads] at absent
  rw [run_getBlock]
  exact ⟨_, congrArg (·, servers) (Prod.ext refused rfl)⟩

include lawful

/-- With enough reads the loop appends the blocks of the walk. -/
theorem run_queryLoop (memory : Nat → Uninitialized) (key : Bytes) (blocks : List Block)
    (walk : Walk (blockAt config cereal servers) Block._next key blocks) (reads : Nat)
    (enough : blocks.length < reads) (blockList : List Block) :
    run (serve throws) (queryLoop config cereal memory reads key blockList) servers =
      (some (blockList ++ blocks), servers) := by
  induction walk generalizing reads blockList with
  | @stop key absent =>
      obtain ⟨more, rfl⟩ := Nat.exists_eq_succ_of_ne_zero (Nat.ne_of_gt enough)
      by_cases unnamed : key = []
      · simp [queryLoop, unnamed]
      · obtain ⟨block, read⟩ := run_getBlock_none config cereal throws servers fills key
          (memory more) absent
        simp [queryLoop, unnamed, run_bind, read]
  | @step key block rest found tail ih =>
      obtain ⟨more, rfl⟩ := Nat.exists_eq_succ_of_ne_zero (Nat.ne_of_gt (Nat.zero_lt_of_lt enough))
      have named := (blockAt_present config cereal servers lawful key (by simp [found])).1
      have read := run_getBlock_some config cereal throws servers fills key block (memory more)
        found
      simp only [queryLoop, List.isEmpty_iff, named, ↓reduceIte, run_bind, read, Bool.not_true,
        Bool.false_eq_true]
      rw [ih more (by simpa using enough), List.append_assoc, List.singleton_append]

/-- What is returned for a stored block is the walk behind it. -/
theorem run_queryBlockChain (memory : Nat → Uninitialized) (key : Bytes) (block : Block)
    (stored : blockAt config cereal servers key = some block) (blocks : List Block)
    (walk : Walk (blockAt config cereal servers) Block._next block._next blocks) (reads : Nat)
    (enough : blocks.length < reads) (blockList : List Block) :
    run (serve throws) (queryBlockChain config cereal memory reads key blockList) servers =
      (some (true, blockList ++ blocks), servers) := by
  simp [queryBlockChain, run_bind,
    run_getBlock_some config cereal throws servers fills key block (memory reads) stored,
    run_queryLoop config cereal throws servers lawful fills memory block._next blocks walk reads
      enough blockList]

theorem run_queryBlockChain_unknown (memory : Nat → Uninitialized) (key : Bytes)
    (absent : blockAt config cereal servers key = none) (reads : Nat) (enough : 0 < reads)
    (blockList : List Block) :
    run (serve throws) (queryBlockChain config cereal memory reads key blockList) servers =
      (some (true, blockList), servers) := by
  obtain ⟨block, read⟩ := run_getBlock_none config cereal throws servers fills key
    (memory reads) absent
  have nowhere : blockAt config cereal servers [] = none := by
    by_contra present
    exact (blockAt_present config cereal servers lawful [] present).1 rfl
  have loop := run_queryLoop config cereal throws servers lawful fills memory [] []
    (.stop nowhere) reads enough blockList
  rw [List.append_nil] at loop
  simp [queryBlockChain, run_bind, read, loop]

end Reads

/-- Every stored block is stored under its own id. -/
def Keyed (servers : Servers) : Prop :=
  ∀ key block, blockAt config cereal servers key = some block → block._id = key

/-- From a stored block without a circle behind it the call comes to an end and
returns the blocks behind it, each once; from any block of the answer it returns
the rest of the answer; and from a block that is not known nothing. -/
theorem queryBlockChain_follows (lawful : cereal.Lawful) (fills : Fills cereal.block)
    (keyed : Keyed config cereal servers) (f : Bytes) (block : Block)
    (stored : blockAt config cereal servers f = some block)
    (acyclic : Acyclic (blockAt config cereal servers) Block._next f) :
    (∃ blocks, Walk (blockAt config cereal servers) Block._next block._next blocks ∧
      blocks.Nodup ∧ ∀ memory reads, blocks.length < reads →
        run (serve throws) (queryBlockChain config cereal memory reads f []) servers =
          (some (true, blocks), servers) ∧
        ∀ i b, blocks[i]? = some b →
          run (serve throws) (queryBlockChain config cereal memory reads b._id []) servers =
            (some (true, blocks.drop (i + 1)), servers)) ∧
    ∀ unknown, blockAt config cereal servers unknown = none →
      ∀ memory reads, 0 < reads →
        run (serve throws) (queryBlockChain config cereal memory reads unknown []) servers =
          (some (true, []), servers) := by
  refine ⟨?_, fun unknown absent memory reads enough =>
    run_queryBlockChain_unknown config cereal throws servers lawful fills memory unknown absent
      reads enough []⟩
  obtain ⟨blocks, walk⟩ := (acyclic.follow stored).exists_walk
    (servers config.dbService).keys block._next fun other _ present =>
      (blockAt_present config cereal servers lawful other present).2
  refine ⟨blocks, walk, walk.nodup, fun memory reads enough => ⟨?_, fun i b here => ?_⟩⟩
  · exact run_queryBlockChain config cereal throws servers lawful fills memory f block stored
      blocks walk reads enough []
  · obtain ⟨inside, rfl⟩ := List.getElem?_eq_some_iff.mp here
    have parts : blocks = blocks.take i ++ blocks[i] :: blocks.drop (i + 1) := by
      rw [List.getElem_cons_drop inside, List.take_append_drop]
    obtain ⟨⟨key, found⟩, onward⟩ := Walk.behind (blocks.take i) (parts ▸ walk)
    rw [← keyed key _ found] at found
    exact run_queryBlockChain config cereal throws servers lawful fills memory _ _ found _ onward
      reads (by rw [List.length_drop]; omega) []

end Query

/-! A store that holds some blocks, each under its id. -/

theorem codec_fills {Message : Type} (members : TextLayout.Layout Message)
    (cut : Message → Message) : Fills (codec members cut) := by
  intro text old other loads
  simp only [codec] at loads ⊢
  split at loads
  · rfl
  · cases loads

def holding (blocks : List Block) : Servers := fun _ =>
  blocks.foldr
    (fun block db => db.insert block._id (.string (cerealJson.block.toString block))) ∅

theorem blockAt_holding (config : Config) (blocks : List Block)
    (clean : ∀ block ∈ blocks, block.Clean) (key : Bytes) :
    blockAt config cerealJson (holding blocks) key =
      if key = [] then none else blocks.find? fun block => block._id = key := by
  by_cases unnamed : key = []
  · simp only [blockAt, storedText, unnamed, ↓reduceIte, cerealJson_lawful.block.nothing]
    rfl
  · simp only [blockAt, storedText, unnamed, ↓reduceIte]
    induction blocks with
    | nil => rfl
    | cons block rest ih =>
        simp only [holding, List.foldr_cons, List.find?_cons] at ih ⊢
        by_cases same : block._id = key
        · subst key
          rw [Finmap.lookup_insert]
          simp only [decide_true]
          rw [cerealJson_lawful.block.round _ _ (clean block List.mem_cons_self)]
          rfl
        · rw [Finmap.lookup_insert_of_ne _ (Ne.symm same)]
          simp only [same, decide_false]
          exact ih fun other member => clean other (List.mem_cons_of_mem _ member)

theorem holding_keyed (config : Config) (blocks : List Block)
    (clean : ∀ block ∈ blocks, block.Clean) : Keyed config cerealJson (holding blocks) := by
  intro key block stored
  rw [blockAt_holding config blocks clean key] at stored
  split at stored
  · cases stored
  · simpa using List.find?_some stored

def linked (id next : String) : Block := ⟨ascii id, [], ascii next, 0, []⟩

/-- The last link leads to a block that is missing. -/
def threeBlocks : List Block := [linked "b0" "b1", linked "b1" "b2", linked "b2" "b3"]

theorem threeBlocks_walk :
    Walk (blockAt rootServerConf cerealJson (holding threeBlocks)) Block._next (ascii "b1")
      [linked "b1" "b2", linked "b2" "b3"] := by
  have read := blockAt_holding rootServerConf threeBlocks (by decide)
  have missing : Walk (blockAt rootServerConf cerealJson (holding threeBlocks)) Block._next
      (ascii "b3") [] := .stop (by rw [read]; rfl)
  have last : Walk (blockAt rootServerConf cerealJson (holding threeBlocks)) Block._next
      (ascii "b2") [linked "b2" "b3"] := .step (by rw [read]; rfl) missing
  exact .step (by rw [read]; rfl) last

/-- From the first block the two behind it, from the second one the last. -/
theorem queryBlockChain_follows_threeBlocks :
    run (serve fun _ => false) (queryBlockChain rootServerConf cerealJson (fun _ => ⟨0, 0⟩) 3
        (ascii "b0") []) (holding threeBlocks) =
      (some (true, [linked "b1" "b2", linked "b2" "b3"]), holding threeBlocks) ∧
    run (serve fun _ => false) (queryBlockChain rootServerConf cerealJson (fun _ => ⟨0, 0⟩) 3
        (ascii "b1") []) (holding threeBlocks) =
      (some (true, [linked "b2" "b3"]), holding threeBlocks) := by
  have stored : blockAt rootServerConf cerealJson (holding threeBlocks) (ascii "b0") =
      some (linked "b0" "b1") := by
    rw [blockAt_holding rootServerConf threeBlocks (by decide)]
    rfl
  obtain ⟨⟨blocks, walk, -, answers⟩, -⟩ := queryBlockChain_follows rootServerConf cerealJson
    (fun _ => false) (holding threeBlocks) cerealJson_lawful (codec_fills blockMembers cBlock)
    (holding_keyed rootServerConf threeBlocks (by decide)) (ascii "b0") (linked "b0" "b1") stored
    (Walk.acyclic (.step stored threeBlocks_walk))
  obtain rfl := Walk.unique _ _ _ _ _ walk threeBlocks_walk
  obtain ⟨whole, resumed⟩ := answers (fun _ => ⟨0, 0⟩) 3 (by decide)
  exact ⟨whole, resumed 0 (linked "b1" "b2") rfl⟩

end FPayNode.BlockSync
