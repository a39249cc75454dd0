import FPayNode.BlockCreation
import FPayNode.RootTransaction

/-!
Rounds of the root node: transactions are appended to the pool, then
`createBlock` is called. A call that finds transactions changes the block
service at two keys at most, the new block's id and the id of the block read
as the last one; a call that finds none changes nothing.
-/

namespace FPayNode.BlockRounds

open CommandProgram DecimalText RedisServer RedisCache Messages NodeService
open RootTransaction BlockCreation

structure Round where
  moment : Moment
  texts : List Bytes

def Round.id (rand : UInt32 → Nat → Nat) (round : Round) : Bytes :=
  genBlockId rand round.moment.seconds

def enQueueAll (config : Config) : List Bytes → Calls Unit
  | [] => pure ()
  | text :: texts => do
      let _ ← enQueue config.cacheService config.txPoolKey text
      enQueueAll config texts

def playRound (config : Config) (cereal : Cereal) (rand : UInt32 → Nat → Nat) (round : Round) :
    Calls (Bool × Block) := do
  enQueueAll config round.texts
  createBlock config cereal rand round.moment (Block.fresh (round.moment.memory 0))

/-- The text `getBlock` loads from: nothing, unless a string is stored. -/
def storedText (config : Config) (servers : Servers) (blockId : Bytes) : Bytes :=
  if blockId = [] then []
  else
    match (servers config.dbService).lookup blockId with
    | some (.string text) => text
    | _ => []

/-- The record of the pool, seen from the service `observed`. -/
def AtPool (config : Config) (observed key : Bytes) : Prop :=
  observed = config.cacheService ∧ key = config.txPoolKey

instance (config : Config) (observed key : Bytes) : Decidable (AtPool config observed key) :=
  inferInstanceAs (Decidable (_ ∧ _))

section Parts
variable (config : Config) (cereal : Cereal) (throws : Bytes → Bool)

theorem run_getBlock (servers : Servers) (blockId : Bytes) (block : Block) :
    run (serve throws) (getBlock config cereal blockId block) servers =
      (cereal.block.fromString (storedText config servers blockId) block, servers) := by
  rw [getBlock_form, storedText]
  by_cases unnamed : blockId = []
  · simp [unnamed]
  · simp only [unnamed, ↓reduceIte, run_issue, run_finish, serve, exec_get_db,
      Function.update_eq_self]
    simp only [exec]
    cases (servers config.dbService).lookup blockId with
    | none => rfl
    | some value => cases value <;> rfl

theorem run_storeBlock (lawful : cereal.Lawful) (servers : Servers) (block : Block) :
    run (serve throws) (storeBlock config cereal block) servers =
      if block._id = [] then (false, servers)
      else (true, Function.update servers config.dbService
        ((servers config.dbService).insert block._id
          (.string (cereal.block.toString block)))) := by
  rw [storeBlock_form config cereal lawful]
  by_cases unnamed : block._id = []
  · simp [unnamed]
  · simp only [unnamed, ↓reduceIte, run_issue, run_finish, serve, exec]
    rfl

variable (named : config.txPoolKey ≠ [])
include named

/-- The pool grows by the texts; records of other keys and services stay. -/
theorem run_enQueueAll (texts : List Bytes) (servers : Servers)
    (succeeds : Succeeds throws servers (enQueueAll config texts)) :
    poolOf config ((run (serve throws) (enQueueAll config texts) servers).2
        config.cacheService) =
      poolOf config (servers config.cacheService) ++ texts ∧
    ∀ observed key, ¬ AtPool config observed key →
      ((run (serve throws) (enQueueAll config texts) servers).2 observed).lookup key =
        (servers observed).lookup key := by
  induction texts generalizing servers with
  | nil => simp [enQueueAll]
  | cons text texts ih =>
      simp only [enQueueAll, enQueue_form, named, ↓reduceIte, Program.issue_bind,
        Program.finish_bind, Succeeds, trace_issue, List.forall_mem_cons, run_issue]
        at succeeds ⊢
      obtain ⟨pool, others⟩ := ih _ succeeds.2
      have record := afterPush_accepted (servers config.cacheService) config.txPoolKey [text]
        ((succeeded_reply _).mp succeeds.1)
      rw [afterPush] at record
      constructor
      · rw [pool]
        simp [serve, poolOf, record, itemsIn]
      · intro observed key apart
        rw [others observed key apart]
        exact serve_lookup_apart throws servers observed config.cacheService key _
          fun same db => exec_rpush_other db _ _ _ fun pool => apart ⟨same, pool⟩

/-- The whole pool is returned and removed. -/
theorem run_deQueueAll (servers : Servers)
    (succeeds : Succeeds throws servers
      (deQueueAll config.cacheService config.txPoolKey [])) :
    (run (serve throws) (deQueueAll config.cacheService config.txPoolKey []) servers).1 =
      (true, poolOf config (servers config.cacheService)) ∧
    ∀ observed key,
      ((run (serve throws) (deQueueAll config.cacheService config.txPoolKey []) servers).2
        observed).lookup key =
        if AtPool config observed key then none else (servers observed).lookup key := by
  simp only [deQueueAll_form, Succeeds, trace_issue, List.forall_mem_cons, run_issue]
    at succeeds ⊢
  have whole := lrange_all (servers config.cacheService) config.txPoolKey
    ((succeeded_reply _).mp succeeds.1)
  have answer : serve throws (.redis config.cacheService (.lrange config.txPoolKey 0 (-1)))
      servers = (.reply (.array (poolOf config (servers config.cacheService))), servers) := by
    simp [serve, whole, poolOf]
  rw [answer]
  simp only [itemsOf, delete_form, named, ↓reduceIte, Program.issue_bind, Program.finish_bind,
    run_issue, run_finish, List.nil_append]
  refine ⟨rfl, fun observed key => ?_⟩
  by_cases pool : AtPool config observed key
  · obtain ⟨rfl, rfl⟩ := pool
    simp [AtPool, serve, exec]
  · rw [if_neg pool]
    exact serve_lookup_apart throws servers observed config.cacheService key _
      fun same db => exec_del_other db _ _ fun drained => pool ⟨same, drained⟩

end Parts

section Whole
variable (config : Config) (cereal : Cereal) (rand : UInt32 → Nat → Nat)
variable (throws : Bytes → Bool)

/-- The block a round reads as the last one. -/
def lastRead (servers : Servers) (round : Round) : Block :=
  (cereal.block.fromString (storedText config servers config.lastBlockKey)
    (Block.fresh (round.moment.memory 1))).2

def newBlock (servers : Servers) (round : Round) : Block :=
  builtBlock cereal rand round.moment (Block.fresh (round.moment.memory 0))
    (lastRead config cereal servers round)
    (poolOf config (servers config.cacheService) ++ round.texts)

theorem newBlock_id (servers : Servers) (round : Round) :
    (newBlock config cereal rand servers round)._id = round.id rand := rfl

theorem newBlock_clean (lawful : cereal.Lawful) (servers : Servers) (round : Round) :
    (newBlock config cereal rand servers round).Clean :=
  builtBlock_clean cereal lawful rand round.moment _ _ (Block.fresh_clean _)
    (lawful.block.loaded _ _ (Block.fresh_clean _)) _

theorem run_afterDrain (lawful : cereal.Lawful) (moment : Moment) (block lastBlock : Block)
    (items : List Bytes) (nonempty : items ≠ []) (servers : Servers) (key : Bytes) :
    (run (serve throws) (afterDrain config cereal rand moment block lastBlock (true, items))
      servers).1 = (true, builtBlock cereal rand moment block lastBlock items) ∧
    ((run (serve throws) (afterDrain config cereal rand moment block lastBlock (true, items))
      servers).2 config.dbService).lookup key =
      if lastBlock._id ≠ [] ∧ key = lastBlock._id then
        some (.string (cereal.block.toString (linkedBlock rand moment lastBlock)))
      else if key = genBlockId rand moment.seconds then
        some (.string (cereal.block.toString
          (builtBlock cereal rand moment block lastBlock items)))
      else (servers config.dbService).lookup key := by
  have first := run_storeBlock config cereal throws lawful servers
    (builtBlock cereal rand moment block lastBlock items)
  rw [if_neg (show (builtBlock cereal rand moment block lastBlock items)._id ≠ [] from
    genBlockId_ne_nil rand moment.seconds)] at first
  simp only [afterDrain, nonempty, ne_eq, not_false_eq_true, and_self, ↓reduceIte, run_bind,
    run_finish, true_and]
  rw [first, run_storeBlock config cereal throws lawful]
  have linked : (linkedBlock rand moment lastBlock)._id = lastBlock._id := rfl
  have built : (builtBlock cereal rand moment block lastBlock items)._id =
      genBlockId rand moment.seconds := rfl
  rw [linked]
  by_cases unnamed : lastBlock._id = []
  · simp only [unnamed, ↓reduceIte, not_true_eq_false, false_and, Function.update_self]
    by_cases mine : key = genBlockId rand moment.seconds
    · rw [if_pos mine, mine, built, Finmap.lookup_insert]
    · rw [if_neg mine, built, Finmap.lookup_insert_of_ne _ mine]
  · simp only [unnamed, ↓reduceIte, not_false_eq_true, true_and, Function.update_self]
    by_cases last : key = lastBlock._id
    · rw [if_pos last, last, Finmap.lookup_insert]
    · rw [if_neg last, Finmap.lookup_insert_of_ne _ last]
      by_cases mine : key = genBlockId rand moment.seconds
      · rw [if_pos mine, mine, built, Finmap.lookup_insert]
      · rw [if_neg mine, built, Finmap.lookup_insert_of_ne _ mine]

/-- `createBlock` finds transactions in the pool. -/
def Filled (servers : Servers) (round : Round) : Prop :=
  poolOf config (servers config.cacheService) ++ round.texts ≠ []

instance (servers : Servers) (round : Round) : Decidable (Filled config servers round) :=
  inferInstanceAs (Decidable (_ ≠ _))

/-- A filled pool is not where the last block is looked for: its `GET` would
be refused. -/
theorem lastBlockKey_apart (named : config.txPoolKey ≠ []) (round : Round) (servers : Servers)
    (filled : poolOf config (servers config.cacheService) ≠ [])
    (reads : Succeeds throws servers
      (getBlock config cereal config.lastBlockKey (Block.fresh (round.moment.memory 1)))) :
    ¬ AtPool config config.dbService config.lastBlockKey := by
  rintro ⟨same, pool⟩
  rw [getBlock_form, pool, if_neg named, same] at reads
  simp only [Succeeds, trace_issue, List.forall_mem_cons, serve, succeeded_reply, exec] at reads
  simp only [poolOf] at filled
  revert reads filled
  cases (servers config.cacheService).lookup config.txPoolKey with
  | none => simp [itemsIn]
  | some value => cases value <;> simp [itemsIn]

/-- What a round returns that makes a block, and what the block service holds
after it. -/
theorem run_filled (lawful : cereal.Lawful) (named : config.txPoolKey ≠ []) (servers : Servers)
    (round : Round) (filled : Filled config servers round)
    (succeeds : Succeeds throws servers (playRound config cereal rand round)) :
    (run (serve throws) (playRound config cereal rand round) servers).1 =
      (true, newBlock config cereal rand servers round) ∧
    ∀ key, (after (serve throws) (playRound config cereal rand) servers round
        config.dbService).lookup key =
        if (lastRead config cereal servers round)._id ≠ [] ∧
            key = (lastRead config cereal servers round)._id then
          some (.string (cereal.block.toString
            (linkedBlock rand round.moment (lastRead config cereal servers round))))
        else if key = round.id rand then
          some (.string (cereal.block.toString (newBlock config cereal rand servers round)))
        else if AtPool config config.dbService key then none
        else (servers config.dbService).lookup key := by
  simp only [playRound, createBlock_eq, succeeds_bind, run_getBlock] at succeeds
  obtain ⟨pushes, reads, drains, -⟩ := succeeds
  obtain ⟨pushed, keptPush⟩ := run_enQueueAll config throws named round.texts servers pushes
  obtain ⟨batch, keptDrain⟩ := run_deQueueAll config throws named _ drains
  have apart := lastBlockKey_apart config cereal throws named round _
    (by rw [pushed]; exact filled) reads
  -- The appends do not touch what is read as the last block.
  have text : storedText config (run (serve throws) (enQueueAll config round.texts) servers).2
      config.lastBlockKey = storedText config servers config.lastBlockKey := by
    simp only [storedText]
    rw [keptPush config.dbService config.lastBlockKey apart]
  rw [pushed] at batch
  simp only [after, playRound, createBlock_eq, run_bind, run_getBlock, batch, text]
  constructor
  · exact (run_afterDrain config cereal rand throws lawful round.moment _ _ _ filled _ []).1
  · intro key
    rw [(run_afterDrain config cereal rand throws lawful round.moment _ _ _ filled _ key).2,
      keptDrain config.dbService key]
    by_cases pool : AtPool config config.dbService key
    · simp only [pool, ↓reduceIte]
      rfl
    · rw [keptPush config.dbService key pool]
      rfl

theorem run_unfilled (named : config.txPoolKey ≠ []) (servers : Servers) (round : Round)
    (unfilled : ¬ Filled config servers round)
    (succeeds : Succeeds throws servers (playRound config cereal rand round)) :
    (run (serve throws) (playRound config cereal rand round) servers).1.1 = false ∧
    ∀ key, (after (serve throws) (playRound config cereal rand) servers round
        config.dbService).lookup key =
        if AtPool config config.dbService key then none
        else (servers config.dbService).lookup key := by
  simp only [playRound, createBlock_eq, succeeds_bind, run_getBlock] at succeeds
  obtain ⟨pushes, -, drains, -⟩ := succeeds
  obtain ⟨pushed, keptPush⟩ := run_enQueueAll config throws named round.texts servers pushes
  obtain ⟨batch, keptDrain⟩ := run_deQueueAll config throws named _ drains
  rw [pushed, not_not.mp unfilled] at batch
  simp only [after, playRound, createBlock_eq, run_bind, run_getBlock, batch, afterDrain,
    ne_eq, not_true_eq_false, and_false, ↓reduceIte, run_finish, true_and]
  intro key
  rw [keptDrain config.dbService key]
  by_cases pool : AtPool config config.dbService key
  · rw [if_pos pool, if_pos pool]
  · rw [if_neg pool, if_neg pool, keptPush config.dbService key pool]

/-! Blocks as the rounds return them and as they are read back. -/

/-- The block of a call that reports success. -/
def returned (outcome : Bool × Block) : Option Block :=
  if outcome.1 then some outcome.2 else none

def created (servers : Servers) (rounds : List Round) : List Block :=
  (results (serve throws) (playRound config cereal rand) servers rounds).filterMap returned

theorem created_append (servers : Servers) (earlier later : List Round) :
    created config cereal rand throws servers (earlier ++ later) =
      created config cereal rand throws servers earlier ++
        created config cereal rand throws
          (runAll (serve throws) (playRound config cereal rand) servers earlier) later := by
  simp only [created, results_append, List.filterMap_append]

def readBlock (memory : Uninitialized) (servers : Servers) (blockId : Bytes) : Option Block :=
  returned (run (serve throws) (getBlock config cereal blockId (Block.fresh memory)) servers).1

/-- The block service holds the text of the block under the key. -/
def Holds (servers : Servers) (key : Bytes) (block : Block) : Prop :=
  key ≠ [] ∧
    (servers config.dbService).lookup key = some (.string (cereal.block.toString block))

instance (servers : Servers) (key : Bytes) (block : Block) :
    Decidable (Holds config cereal servers key block) :=
  inferInstanceAs (Decidable (_ ∧ _))

theorem storedText_of_holds (servers : Servers) (key : Bytes) (block : Block)
    (held : Holds config cereal servers key block) :
    storedText config servers key = cereal.block.toString block := by
  simp only [storedText, held.1, held.2, ↓reduceIte]

theorem readBlock_of_holds (lawful : cereal.Lawful) (memory : Uninitialized) (servers : Servers)
    (key : Bytes) (block : Block) (clean : block.Clean)
    (held : Holds config cereal servers key block) :
    readBlock config cereal throws memory servers key = some block := by
  simp only [readBlock, run_getBlock, storedText_of_holds config cereal servers key block held,
    lawful.block.round block _ clean, returned, ↓reduceIte]

theorem readBlock_nil (lawful : cereal.Lawful) (memory : Uninitialized) (servers : Servers) :
    readBlock config cereal throws memory servers [] = none := by
  simp only [readBlock, run_getBlock, storedText, ↓reduceIte, lawful.block.nothing, returned,
    Bool.false_eq_true]

/-- A text stored under the pool's key is refused by a round's first command
on the pool, an append or the read of the whole list. -/
theorem text_apart (named : config.txPoolKey ≠ []) (servers : Servers) (round : Round)
    (key text : Bytes)
    (found : (servers config.dbService).lookup key = some (.string text))
    (succeeds : Succeeds throws servers (playRound config cereal rand round)) :
    ¬ AtPool config config.dbService key := by
  rintro ⟨same, rfl⟩
  rw [same] at found
  simp only [playRound, createBlock_eq, succeeds_bind, run_getBlock] at succeeds
  obtain ⟨pushes, -, drains, -⟩ := succeeds
  cases shape : round.texts with
  | nil =>
      rw [shape] at drains
      simp only [enQueueAll, Program.pure_def, run_finish, deQueueAll_form, Succeeds,
        trace_issue, List.forall_mem_cons, serve, succeeded_reply, exec, found, ne_eq,
        not_true_eq_false, false_and] at drains
  | cons first rest =>
      rw [shape] at pushes
      simp only [enQueueAll, enQueue_form, named, ↓reduceIte, Program.issue_bind, Succeeds,
        trace_issue, List.forall_mem_cons, serve, succeeded_reply,
        rpush_string _ _ _ _ found, ne_eq, not_true_eq_false, false_and] at pushes

section Steps
variable (lawful : cereal.Lawful) (named : config.txPoolKey ≠ []) (servers : Servers)
  (round : Round)
  (succeeds : Succeeds throws servers (playRound config cereal rand round))
include lawful named succeeds

/-- A round replaces no text but those of the new block and of the last one. -/
theorem round_keeps_text (key text : Bytes)
    (found : (servers config.dbService).lookup key = some (.string text))
    (new : Filled config servers round → key ≠ round.id rand)
    (last : key ≠ (lastRead config cereal servers round)._id) :
    (after (serve throws) (playRound config cereal rand) servers round
      config.dbService).lookup key = some (.string text) := by
  have apart := text_apart config cereal rand throws named servers round key text found succeeds
  by_cases filled : Filled config servers round
  · rw [(run_filled config cereal rand throws lawful named servers round filled succeeds).2 key,
      if_neg fun linked => last linked.2, if_neg (new filled), if_neg apart, found]
  · rw [(run_unfilled config cereal rand throws named servers round filled succeeds).2 key,
      if_neg apart, found]

theorem round_stores_new (filled : Filled config servers round)
    (apart : round.id rand ≠ (lastRead config cereal servers round)._id) :
    Holds config cereal (after (serve throws) (playRound config cereal rand) servers round)
      (round.id rand) (newBlock config cereal rand servers round) := by
  refine ⟨genBlockId_ne_nil rand round.moment.seconds, ?_⟩
  rw [(run_filled config cereal rand throws lawful named servers round filled succeeds).2,
    if_neg fun linked => apart linked.2, if_pos rfl]

theorem created_filled (filled : Filled config servers round) (rounds : List Round) :
    created config cereal rand throws servers (round :: rounds) =
      newBlock config cereal rand servers round ::
        created config cereal rand throws
          (after (serve throws) (playRound config cereal rand) servers round) rounds := by
  have made := (run_filled config cereal rand throws lawful named servers round filled
    succeeds).1
  simp [created, made, returned]

omit lawful in
theorem created_unfilled (unfilled : ¬ Filled config servers round) (rounds : List Round) :
    created config cereal rand throws servers (round :: rounds) =
      created config cereal rand throws
        (after (serve throws) (playRound config cereal rand) servers round) rounds := by
  have nothing := (run_unfilled config cereal rand throws named servers round unfilled
    succeeds).1
  simp [created, nothing, returned]

end Steps

end Whole
end FPayNode.BlockRounds
