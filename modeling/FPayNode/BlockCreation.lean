import FPayNode.NodeService

/-!
`createBlock` and its parts as the commands they issue: reading the last
block, draining the pool, and writing the new block and the last one.
-/

namespace FPayNode.BlockCreation

open CommandProgram DecimalText RedisServer RedisCache Messages NodeService

theorem randChar_range (x : Nat) :
    48 ≤ (randChar x).toNat ∧ (randChar x).toNat ≤ 122 := by
  have letters : x % 26 < 26 := Nat.mod_lt _ (by decide)
  have digits : x % 10 < 10 := Nat.mod_lt _ (by decide)
  have small : ∀ n, n < 256 → (UInt8.ofNat n).toNat = n := fun n bound => by
    rw [UInt8.toNat_ofNat', Nat.mod_eq_of_lt bound]
  simp only [randChar]
  split
  · rw [small _ (by omega)]
    omega
  · split
    · rw [small _ (by omega)]
      omega
    · rw [small _ (by omega)]
      omega

theorem genBlockId_length (rand : UInt32 → Nat → Nat) (seconds : Nat) :
    (genBlockId rand seconds).length = 63 := by
  simp [genBlockId, getRandStr]

theorem genBlockId_ne_nil (rand : UInt32 → Nat → Nat) (seconds : Nat) :
    genBlockId rand seconds ≠ [] := by
  intro empty
  have length := genBlockId_length rand seconds
  rw [empty] at length
  cases length

theorem genBlockId_clean (rand : UInt32 → Nat → Nat) (seconds : Nat) :
    CString (genBlockId rand seconds) := by
  intro member
  obtain ⟨i, -, zero⟩ := List.mem_map.mp member
  have range := randChar_range (rand (UInt32.ofNat seconds) i)
  rw [zero] at range
  simp at range

/-! The generator of the GNU C library: thirty words of a linear congruence,
then sums of earlier words, of which the first 310 are dropped. -/

def congruences : Nat → Int → List Nat
  | 0, _ => []
  | count + 1, word =>
      (word % 2 ^ 32).toNat :: congruences count (16807 * word % 2147483647)

def nextWords (words : List Nat) : List Nat :=
  words.tail ++ [(words.headD 0 + words.getD 28 0) % 2 ^ 32]

def glibcRand (seed : UInt32) (i : Nat) : Nat :=
  let first : Int := if seed = 0 then 1 else seed.toInt32.toInt
  let words := congruences 31 first
  (nextWords^[311 + i] (words.drop 3 ++ words.take 3)).getLastD 0 / 2

section Forms
variable (config : Config) (cereal : Cereal)

theorem getBlock_form (blockId : Bytes) (block : Block) :
    getBlock config cereal blockId block =
      if blockId = [] then .finish (cereal.block.fromString [] block)
      else .issue (.redis config.dbService (.get blockId)) fun answer =>
        .finish (cereal.block.fromString (textOf [] answer).2 block) := by
  simp only [getBlock, get_form]
  split <;> rfl

theorem getBlock_issues (holds : Effect → Prop) (blockId : Bytes) (block : Block)
    (one : holds (.redis config.dbService (.get blockId))) :
    (getBlock config cereal blockId block).Issues holds :=
  Program.issues_bind holds _ _ (get_issues holds _ _ _ one) fun _ => trivial

theorem storeBlock_form (lawful : cereal.Lawful) (block : Block) :
    storeBlock config cereal block =
      if block._id = [] then .finish false
      else .issue (.redis config.dbService
          (.set block._id (cereal.block.toString block) (-1) .always)) fun answer =>
        .finish (statusAnswer answer) := by
  simp only [storeBlock, List.isEmpty_iff, lawful.block.nonempty block, ↓reduceIte, set_form]

variable (rand : UInt32 → Nat → Nat) (moment : Moment)

/-- The block made of a drained batch. -/
def builtBlock (block lastBlock : Block) (txList : List Bytes) : Block :=
  { block with
    _timestamp := moment.clock
    _id := genBlockId rand moment.seconds
    _prev := lastBlock._id
    _txList := block._txList ++ loadAll cereal (fun i => moment.memory (i + 2)) txList }

def linkedBlock (lastBlock : Block) : Block :=
  { lastBlock with _next := genBlockId rand moment.seconds }

/-- What follows the drain: an empty batch makes no block. -/
def afterDrain (block lastBlock : Block) (batch : Bool × List Bytes) : Calls (Bool × Block) :=
  if batch.1 = true ∧ batch.2 ≠ [] then
    storeBlock config cereal (builtBlock cereal rand moment block lastBlock batch.2) >>= fun _ =>
      storeBlock config cereal (linkedBlock rand moment lastBlock) >>= fun _ =>
        .finish (true, builtBlock cereal rand moment block lastBlock batch.2)
  else .finish (false, { block with _timestamp := moment.clock })

theorem createBlock_eq (block : Block) :
    createBlock config cereal rand moment block =
      (getBlock config cereal config.lastBlockKey (Block.fresh (moment.memory 1)) >>= fun found =>
        deQueueAll config.cacheService config.txPoolKey [] >>=
          afterDrain config cereal rand moment block found.2) := by
  simp only [createBlock]
  congr 1
  funext found
  congr 1
  funext batch
  obtain ⟨drained, txList⟩ := batch
  cases drained with
  | false => rfl
  | true =>
      cases txList with
      | nil => rfl
      | cons text rest => rfl

end Forms

/-- What was written to the pool is loaded back. -/
theorem loadAll_toString (cereal : Cereal) (lawful : cereal.Lawful) (memory : Nat → Uninitialized)
    (txs : List Transaction) (clean : ∀ tx ∈ txs, tx.Clean) :
    loadAll cereal memory (txs.map cereal.transaction.toString) = txs := by
  simp only [loadAll]
  apply List.ext_getElem
  · simp
  · intro i inside _
    simp only [List.length_mapIdx, List.length_map] at inside
    rw [List.getElem_mapIdx, List.getElem_map,
      lawful.transaction.round _ _ (clean _ (List.getElem_mem inside))]

/-- A block built on a clean one from any texts holds only C strings. -/
theorem builtBlock_clean (cereal : Cereal) (lawful : cereal.Lawful)
    (rand : UInt32 → Nat → Nat) (moment : Moment) (block lastBlock : Block)
    (clean : block.Clean) (lastClean : lastBlock.Clean) (txList : List Bytes) :
    (builtBlock cereal rand moment block lastBlock txList).Clean := by
  refine ⟨genBlockId_clean rand moment.seconds, lastClean.1, clean.2.2.1, ?_⟩
  intro tx member
  rcases List.mem_append.mp member with old | new
  · exact clean.2.2.2 tx old
  · obtain ⟨i, inside, rfl⟩ := List.mem_mapIdx.mp new
    exact lawful.transaction.loaded _ _ (Transaction.fresh_clean _)

end FPayNode.BlockCreation
