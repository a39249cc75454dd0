import FPayNode.BlockRounds
import FPayNode.CerealJson

/-!
`createBlock` when Redis commands fail. It empties the pool, then writes the new
block and the last one, and looks at neither answer: past the drain nothing
brings the transactions back.
-/

namespace FPayNode.BlockFaults

open CommandProgram DecimalText RedisServer RedisCache Messages NodeService
open RootTransaction BlockCreation BlockRounds CerealJson

/-- The two kinds of answer of a command that was not carried out. -/
inductive Failure where
  | lost
  | refused
  deriving DecidableEq

def Failure.answer : Failure → Answer
  | .lost => .lost
  | .refused => .reply .error

/-- Which commands of one call fail, and how: the `GET` of the last block, the
two of `deQueueAll` and the two `SET`s. -/
structure Faults where
  readLast : Option Failure
  range : Option Failure
  delete : Option Failure
  storeBlock : Option Failure
  storeLast : Option Failure

namespace Faults

/-- The failure of a command that has `sets` commands `SET` in front of it. -/
def failureOf (faults : Faults) (sets : Nat) : Effect → Option Failure
  | .redis _ (.get _) => faults.readLast
  | .redis _ (.lrange _ _ _) => faults.range
  | .redis _ (.del _) => faults.delete
  | .redis _ (.set _ _ _ _) => if sets = 0 then faults.storeBlock else faults.storeLast
  | _ => none

end Faults

def isSet : Effect → Bool
  | .redis _ (.set _ _ _ _) => true
  | _ => false

/-- The services with some commands failing; a failed one has no effect. -/
def faulty (throws : Bytes → Bool) (faults : Faults) :
    Machine Effect Answer (Servers × Nat) := fun command state =>
  let sets := if isSet command then state.2 + 1 else state.2
  match faults.failureOf state.2 command with
  | some failure => (failure.answer, (state.1, sets))
  | none =>
      let (answer, servers) := serve throws command state.1
      (answer, (servers, sets))

section Call
variable (config : Config) (cereal : Cereal) (rand : UInt32 → Nat → Nat)
variable (throws : Bytes → Bool) (faults : Faults)

/-- The call `generateNewBlock` makes. -/
def callCreateBlock (moment : Moment) : Calls (Bool × Block) :=
  createBlock config cereal rand moment (Block.fresh (moment.memory 0))

/-- A record from which the very block is loaded. -/
def StoredBlock (servers : Servers) (block : Block) : Prop :=
  ∃ text, (servers config.dbService).lookup block._id = some (.string text) ∧
    ∀ old, cereal.block.fromString text old = (true, block)

/-- Nothing is lost: a transaction of the pool stays there or is in a stored
block, and a block that is announced is stored. -/
structure Harmless (servers : Servers) (result : Bool × Block) (later : Servers) : Prop where
  kept : ∀ tx : Transaction, tx.Clean →
    cereal.transaction.toString tx ∈ poolOf config (servers config.cacheService) →
    cereal.transaction.toString tx ∈ poolOf config (later config.cacheService) ∨
      ∃ block, StoredBlock config cereal later block ∧ tx ∈ block._txList
  announced : result.1 = true → StoredBlock config cereal later result.2

/-- The block that the call takes for the last one. -/
def lastTaken (servers : Servers) (moment : Moment) : Block :=
  (cereal.block.fromString
    (if faults.readLast = none then storedText config servers config.lastBlockKey else [])
    (Block.fresh (moment.memory 1))).2

/-- The block that the call makes of the pool. -/
def blockOf (servers : Servers) (moment : Moment) : Block :=
  builtBlock cereal rand moment (Block.fresh (moment.memory 0))
    (lastTaken config cereal faults servers moment) (poolOf config (servers config.cacheService))

/-- The pool is read, and its removal answered, though it may be refused. -/
def Drains : Prop := faults.range = none ∧ config.txPoolKey ≠ [] ∧ faults.delete ≠ some .lost

/-- The new block is written, or was there before; and the last block is not
written in its place. -/
def Writes (servers : Servers) (moment : Moment) : Prop :=
  (faults.storeBlock = none ∨
    StoredBlock config cereal servers (blockOf config cereal rand faults servers moment)) ∧
  ¬ (faults.storeLast = none ∧
    (lastTaken config cereal faults servers moment)._id = genBlockId rand moment.seconds)

/-! The parts of a call. -/

theorem faulty_getBlock (servers : Servers) (sets : Nat) (blockId : Bytes) (block : Block) :
    run (faulty throws faults) (getBlock config cereal blockId block) (servers, sets) =
      (cereal.block.fromString
        (if faults.readLast = none then storedText config servers blockId else []) block,
        (servers, sets)) := by
  rw [getBlock_form]
  by_cases unnamed : blockId = []
  · simp [unnamed, storedText]
  · simp only [unnamed, ↓reduceIte, run_issue, run_finish, faulty, Faults.failureOf, isSet]
    cases readLast : faults.readLast with
    | some failure => cases failure <;> rfl
    | none =>
        simp only [serve, exec_get_db, Function.update_eq_self, Bool.false_eq_true, ↓reduceIte,
          storedText, unnamed]
        simp only [exec]
        cases (servers config.dbService).lookup blockId with
        | none => rfl
        | some value => cases value <;> rfl

theorem faulty_storeBlock (lawful : cereal.Lawful) (servers : Servers) (sets : Nat)
    (block : Block) (key : Bytes) :
    ((run (faulty throws faults) (storeBlock config cereal block) (servers, sets)).2.1
      config.dbService).lookup key =
      if block._id ≠ [] ∧ key = block._id ∧
          (if sets = 0 then faults.storeBlock else faults.storeLast) = none then
        some (.string (cereal.block.toString block))
      else (servers config.dbService).lookup key := by
  rw [storeBlock_form config cereal lawful]
  by_cases unnamed : block._id = []
  · simp [unnamed]
  · simp only [unnamed, ↓reduceIte, run_issue, run_finish, faulty, Faults.failureOf, isSet,
      ne_eq, not_false_eq_true, true_and]
    cases fails : (if sets = 0 then faults.storeBlock else faults.storeLast) with
    | some failure => simp
    | none =>
        simp only [serve, exec, Function.update_self, and_true]
        by_cases mine : key = block._id
        · rw [if_pos mine, mine, Finmap.lookup_insert]
        · rw [if_neg mine, Finmap.lookup_insert_of_ne _ mine]

/-- A `SET` is counted, carried out or not. -/
theorem faulty_storeBlock_sets (lawful : cereal.Lawful) (servers : Servers) (sets : Nat)
    (block : Block) (named : block._id ≠ []) :
    (run (faulty throws faults) (storeBlock config cereal block) (servers, sets)).2.2 =
      sets + 1 := by
  rw [storeBlock_form config cereal lawful, if_neg named]
  simp only [run_issue, run_finish, faulty, Faults.failureOf, isSet, ↓reduceIte]
  split <;> rfl

/-- Where the pool is drained, its texts are returned, and the record is gone if
the removal was not refused. -/
theorem faulty_deQueueAll_drains (servers : Servers) (sets : Nat)
    (filled : poolOf config (servers config.cacheService) ≠ []) (drains : Drains config faults) :
    run (faulty throws faults) (deQueueAll config.cacheService config.txPoolKey [])
        (servers, sets) =
      ((true, poolOf config (servers config.cacheService)),
        (if faults.delete = none then
          Function.update servers config.cacheService
            ((servers config.cacheService).erase config.txPoolKey)
        else servers, sets)) := by
  obtain ⟨range, named, answered⟩ := drains
  have whole : exec (.lrange config.txPoolKey 0 (-1)) (servers config.cacheService) =
      (.array (poolOf config (servers config.cacheService)), servers config.cacheService) := by
    simp only [exec]
    revert filled
    simp only [poolOf]
    cases (servers config.cacheService).lookup config.txPoolKey with
    | none => simp [itemsIn]
    | some value => cases value <;> simp [itemsIn, slice_all]
  simp only [deQueueAll_form, delete_form, named, run_issue, faulty, Faults.failureOf, isSet,
    range, serve, whole, Function.update_eq_self, itemsOf, ↓reduceIte, Program.issue_bind,
    Program.finish_bind, Bool.false_eq_true, List.nil_append]
  cases delete : faults.delete with
  | none => simp [anyReply, exec]
  | some failure =>
      cases failure with
      | lost => exact absurd delete answered
      | refused => simp [Failure.answer, anyReply]

/-- Otherwise the call is told so and nothing has changed. -/
theorem faulty_deQueueAll_refuses (servers : Servers) (sets : Nat)
    (refuses : ¬ Drains config faults) :
    (run (faulty throws faults) (deQueueAll config.cacheService config.txPoolKey [])
        (servers, sets)).1.1 = false ∧
      (run (faulty throws faults) (deQueueAll config.cacheService config.txPoolKey [])
        (servers, sets)).2 = (servers, sets) := by
  rw [deQueueAll_form, run_issue]
  cases range : faults.range with
  | some failure => cases failure <;> simp [faulty, Faults.failureOf, isSet, range,
      Failure.answer, itemsOf]
  | none =>
      simp only [faulty, Faults.failureOf, isSet, range, serve, exec_lrange_db,
        Function.update_eq_self, Bool.false_eq_true, ↓reduceIte]
      cases itemsOf (.reply (exec (.lrange config.txPoolKey 0 (-1))
          (servers config.cacheService)).1) with
      | none => exact ⟨rfl, rfl⟩
      | some items =>
          by_cases unnamed : config.txPoolKey = []
          · simp [delete_form, unnamed]
          · have lost : faults.delete = some .lost := by
              by_contra answered
              exact refuses ⟨range, unnamed, answered⟩
            simp [delete_form, unnamed, faulty, Faults.failureOf, isSet, lost, Failure.answer,
              anyReply]

variable (moment : Moment)

theorem run_refuses (servers : Servers) (refuses : ¬ Drains config faults) :
    (run (faulty throws faults) (callCreateBlock config cereal rand moment) (servers, 0)).1.1 =
        false ∧
      (run (faulty throws faults) (callCreateBlock config cereal rand moment) (servers, 0)).2.1 =
        servers := by
  obtain ⟨undrained, unchanged⟩ := faulty_deQueueAll_refuses config throws faults servers 0 refuses
  simp only [callCreateBlock, createBlock_eq, run_bind, faulty_getBlock]
  generalize run (faulty throws faults) (deQueueAll config.cacheService config.txPoolKey [])
    (servers, 0) = batch at undrained unchanged ⊢
  simp [afterDrain, undrained, unchanged]

theorem linkedBlock_clean (lastBlock : Block) (clean : lastBlock.Clean) :
    (linkedBlock rand moment lastBlock).Clean :=
  ⟨clean.1, clean.2.1, genBlockId_clean rand moment.seconds, clean.2.2.2⟩

/-- The last block points to the new one, which points to none. -/
theorem linkedBlock_ne (servers : Servers) (lastBlock : Block) :
    linkedBlock rand moment lastBlock ≠ blockOf config cereal rand faults servers moment := by
  intro same
  exact genBlockId_ne_nil rand moment.seconds (congrArg Block._next same)

section Lawful
variable (lawful : cereal.Lawful)
include lawful

theorem faulty_afterDrain (block lastBlock : Block) (items : List Bytes) (nonempty : items ≠ [])
    (servers : Servers) :
    (run (faulty throws faults)
        (afterDrain config cereal rand moment block lastBlock (true, items)) (servers, 0)).1 =
        (true, builtBlock cereal rand moment block lastBlock items) ∧
      ∀ key, ((run (faulty throws faults)
          (afterDrain config cereal rand moment block lastBlock (true, items))
          (servers, 0)).2.1 config.dbService).lookup key =
        if lastBlock._id ≠ [] ∧ key = lastBlock._id ∧ faults.storeLast = none then
          some (.string (cereal.block.toString (linkedBlock rand moment lastBlock)))
        else if key = genBlockId rand moment.seconds ∧ faults.storeBlock = none then
          some (.string (cereal.block.toString
            (builtBlock cereal rand moment block lastBlock items)))
        else (servers config.dbService).lookup key := by
  have named : (builtBlock cereal rand moment block lastBlock items)._id ≠ [] :=
    genBlockId_ne_nil rand moment.seconds
  have stored := faulty_storeBlock config cereal throws faults lawful servers 0
    (builtBlock cereal rand moment block lastBlock items)
  have counted := faulty_storeBlock_sets config cereal throws faults lawful servers 0
    (builtBlock cereal rand moment block lastBlock items) named
  simp only [afterDrain, nonempty, ne_eq, not_false_eq_true, and_self, ↓reduceIte, run_bind,
    run_finish, true_and]
  intro key
  generalize run (faulty throws faults)
    (storeBlock config cereal (builtBlock cereal rand moment block lastBlock items))
    (servers, 0) = first at stored counted ⊢
  obtain ⟨flag, servers', sets⟩ := first
  -- The second `SET` has the first one in front of it.
  obtain rfl : sets = 1 := counted
  rw [faulty_storeBlock config cereal throws faults lawful servers' 1]
  simp only [one_ne_zero, ↓reduceIte]
  rw [stored key]
  simp only [ne_eq, named, not_false_eq_true, true_and, ↓reduceIte]
  rfl

/-- What the call leaves in the block service when it makes a block. -/
theorem run_drains (servers : Servers) (filled : poolOf config (servers config.cacheService) ≠ [])
    (drains : Drains config faults) :
    (run (faulty throws faults) (callCreateBlock config cereal rand moment) (servers, 0)).1 =
        (true, blockOf config cereal rand faults servers moment) ∧
      ∀ key, ((run (faulty throws faults) (callCreateBlock config cereal rand moment)
          (servers, 0)).2.1 config.dbService).lookup key =
        if (lastTaken config cereal faults servers moment)._id ≠ [] ∧
            key = (lastTaken config cereal faults servers moment)._id ∧
            faults.storeLast = none then
          some (.string (cereal.block.toString
            (linkedBlock rand moment (lastTaken config cereal faults servers moment))))
        else if key = genBlockId rand moment.seconds ∧ faults.storeBlock = none then
          some (.string (cereal.block.toString
            (blockOf config cereal rand faults servers moment)))
        else if AtPool config config.dbService key ∧ faults.delete = none then none
        else (servers config.dbService).lookup key := by
  simp only [callCreateBlock, createBlock_eq, run_bind, faulty_getBlock]
  rw [faulty_deQueueAll_drains config throws faults servers 0 filled drains]
  obtain ⟨result, records⟩ := faulty_afterDrain config cereal rand throws faults moment lawful
    (Block.fresh (moment.memory 0)) (lastTaken config cereal faults servers moment) _ filled
    (if faults.delete = none then
      Function.update servers config.cacheService
        ((servers config.cacheService).erase config.txPoolKey)
    else servers)
  refine ⟨result, fun key => (records key).trans ?_⟩
  have drained : ((if faults.delete = none then
        Function.update servers config.cacheService
          ((servers config.cacheService).erase config.txPoolKey)
      else servers) config.dbService).lookup key =
      if AtPool config config.dbService key ∧ faults.delete = none then none
      else (servers config.dbService).lookup key := by
    by_cases deleted : faults.delete = none
    · simp only [deleted, ↓reduceIte, and_true]
      by_cases pool : AtPool config config.dbService key
      · rw [if_pos pool, pool.1, Function.update_self, pool.2, Finmap.lookup_erase]
      · rw [if_neg pool]
        by_cases service : config.dbService = config.cacheService
        · rw [service, Function.update_self,
            Finmap.lookup_erase_ne fun name => pool ⟨service, name⟩]
        · rw [Function.update_of_ne service]
    · simp [deleted]
  rw [drained]
  rfl

/-! The blocks of a call and their records. -/

theorem lastTaken_clean (servers : Servers) :
    (lastTaken config cereal faults servers moment).Clean :=
  lawful.block.loaded _ _ (Block.fresh_clean _)

theorem blockOf_clean (servers : Servers) :
    (blockOf config cereal rand faults servers moment).Clean :=
  builtBlock_clean cereal lawful rand moment _ _ (Block.fresh_clean _)
    (lastTaken_clean config cereal faults moment lawful servers) _

/-- Every transaction of the pool is in the block. -/
theorem mem_blockOf (servers : Servers) (tx : Transaction) (clean : tx.Clean)
    (pooled : cereal.transaction.toString tx ∈ poolOf config (servers config.cacheService)) :
    tx ∈ (blockOf config cereal rand faults servers moment)._txList := by
  obtain ⟨i, inside, found⟩ := List.mem_iff_getElem.mp pooled
  apply List.mem_append_right
  simp only [loadAll, List.mem_mapIdx]
  refine ⟨i, inside, ?_⟩
  rw [found, lawful.transaction.round _ _ clean]

theorem storedBlock_of_text (servers : Servers) (block : Block) (clean : block.Clean)
    (record : (servers config.dbService).lookup block._id =
      some (.string (cereal.block.toString block))) : StoredBlock config cereal servers block :=
  ⟨_, record, fun old => lawful.block.round block old clean⟩

/-- A drained pool's block is stored after the call. -/
theorem stored_iff (servers : Servers) (filled : poolOf config (servers config.cacheService) ≠ [])
    (drains : Drains config faults) :
    StoredBlock config cereal
        (run (faulty throws faults) (callCreateBlock config cereal rand moment) (servers, 0)).2.1
        (blockOf config cereal rand faults servers moment) ↔
      Writes config cereal rand faults servers moment := by
  obtain ⟨-, records⟩ := run_drains config cereal rand throws faults moment lawful servers filled
    drains
  have id : (blockOf config cereal rand faults servers moment)._id =
    genBlockId rand moment.seconds := rfl
  have record := records (genBlockId rand moment.seconds)
  have clean := blockOf_clean config cereal rand faults moment lawful servers
  have lastClean := lastTaken_clean config cereal faults moment lawful servers
  by_cases overwritten : faults.storeLast = none ∧
      (lastTaken config cereal faults servers moment)._id = genBlockId rand moment.seconds
  · -- The record under the new id is the last block, with the new link.
    rw [if_pos ⟨by rw [overwritten.2]; exact genBlockId_ne_nil rand moment.seconds,
      overwritten.2.symm, overwritten.1⟩] at record
    constructor
    · rintro ⟨text, found, loads⟩
      rw [id, record] at found
      cases found
      have linked := lawful.block.round _ (Block.fresh (moment.memory 0))
        (linkedBlock_clean rand moment _ lastClean)
      rw [loads] at linked
      exact absurd (congrArg Prod.snd linked).symm
        (linkedBlock_ne config cereal rand faults moment servers _)
    · intro writes
      exact absurd overwritten writes.2
  · rw [if_neg fun last => overwritten ⟨last.2.2, last.2.1.symm⟩] at record
    by_cases stores : faults.storeBlock = none
    · rw [if_pos ⟨rfl, stores⟩] at record
      exact iff_of_true (storedBlock_of_text config cereal lawful _ _ clean record)
        ⟨.inl stores, overwritten⟩
    · rw [if_neg fun mine => stores mine.2] at record
      -- What the call does not write under the new id was there before it.
      have before : StoredBlock config cereal
          (run (faulty throws faults) (callCreateBlock config cereal rand moment)
            (servers, 0)).2.1 (blockOf config cereal rand faults servers moment) ↔
          StoredBlock config cereal servers (blockOf config cereal rand faults servers moment) := by
        have underId (servers' : Servers) : StoredBlock config cereal servers'
            (blockOf config cereal rand faults servers moment) ↔
            ∃ text, (servers' config.dbService).lookup (genBlockId rand moment.seconds) =
              some (.string text) ∧
              ∀ old, cereal.block.fromString text old =
                (true, blockOf config cereal rand faults servers moment) := Iff.rfl
        rw [underId, underId, record]
        by_cases pool : AtPool config config.dbService (genBlockId rand moment.seconds)
        · have list : ∀ text, (servers config.dbService).lookup (genBlockId rand moment.seconds) ≠
              some (.string text) := by
            intro text found
            rw [pool.1, pool.2] at found
            simp [poolOf, found, itemsIn] at filled
          by_cases deleted : faults.delete = none
          · simp [pool, deleted, list]
          · simp [deleted]
        · simp [pool]
      rw [before]
      simp [Writes, stores, overwritten]

/-- No failure loses a transaction or announces a block that is not stored, if
and only if a drained pool's block is written. -/
theorem pool_survives_iff (servers : Servers)
    (filled : poolOf config (servers config.cacheService) ≠ []) :
    Harmless config cereal servers
        (run (faulty throws faults) (callCreateBlock config cereal rand moment) (servers, 0)).1
        (run (faulty throws faults) (callCreateBlock config cereal rand moment) (servers, 0)).2.1 ↔
      (Drains config faults → Writes config cereal rand faults servers moment) := by
  by_cases drains : Drains config faults
  · have stored := stored_iff config cereal rand throws faults moment lawful servers filled drains
    obtain ⟨result, -⟩ := run_drains config cereal rand throws faults moment lawful servers filled
      drains
    simp only [drains, true_implies]
    constructor
    · intro harmless
      have announced := harmless.announced
      rw [result] at announced
      exact stored.mp (announced rfl)
    · intro writes
      refine ⟨fun tx clean pooled => .inr ⟨_, stored.mpr writes,
        mem_blockOf config cereal rand faults moment lawful servers tx clean pooled⟩, fun _ => ?_⟩
      rw [result]
      exact stored.mpr writes
  · obtain ⟨undone, unchanged⟩ := run_refuses config cereal rand throws faults moment servers drains
    refine iff_of_true ⟨fun tx _ pooled => .inl ?_, fun done => ?_⟩ fun drained =>
      absurd drained drains
    · rwa [unchanged]
    · rw [undone] at done
      cases done

end Lawful
end Call

/-! A root node that knows of no last block and has one payment in its pool. -/

def pooledPayment : Transaction := ⟨ascii "t1", ascii "alice", ascii "bob", 4, 0⟩

def pooledStart : Servers :=
  Function.update (fun _ => ∅) rootServerConf.cacheService
    ((∅ : Db).insert rootServerConf.txPoolKey
      (.list [cerealJson.transaction.toString pooledPayment]))

def pooledMoment : Moment := ⟨0, 0, fun _ => ⟨0, 0⟩⟩

def noFaults : Faults := ⟨none, none, none, none, none⟩

/-- The connection breaks at the `SET` of the new block. -/
def storeLost : Faults := ⟨none, none, none, some .lost, none⟩

/-- A call on the node, with what it returns and leaves. -/
def pooledCall (faults : Faults) : (Bool × Block) × Servers × Nat :=
  run (faulty (fun _ => false) faults)
    (callCreateBlock rootServerConf cerealJson glibcRand pooledMoment) (pooledStart, 0)

theorem pooledStart_filled :
    poolOf rootServerConf (pooledStart rootServerConf.cacheService) ≠ [] := by
  decide +kernel

theorem pooledStart_unnamed (faults : Faults) :
    (lastTaken rootServerConf cerealJson faults pooledStart pooledMoment)._id = [] := by
  have absent : storedText rootServerConf pooledStart rootServerConf.lastBlockKey = [] := by
    decide +kernel
  simp only [lastTaken, absent, ite_self]
  rw [cerealJson_lawful.block.nothing]
  rfl

theorem pool_survives_iff_noFaults :
    Harmless rootServerConf cerealJson pooledStart (pooledCall noFaults).1
      (pooledCall noFaults).2.1 := by
  refine (pool_survives_iff rootServerConf cerealJson glibcRand (fun _ => false) noFaults
    pooledMoment cerealJson_lawful pooledStart pooledStart_filled).mpr fun _ =>
      ⟨.inl rfl, fun overwritten => ?_⟩
  have named := genBlockId_ne_nil glibcRand 0
  rw [← show _ = genBlockId glibcRand 0 from overwritten.2, pooledStart_unnamed] at named
  exact named rfl

/-- The payment is in no pool and in no block, and the call returns true. -/
theorem failed_store_loses_pool :
    (pooledCall storeLost).1.1 = true ∧
    ¬ Harmless rootServerConf cerealJson pooledStart (pooledCall storeLost).1
      (pooledCall storeLost).2.1 := by
  obtain ⟨result, records⟩ := run_drains rootServerConf cerealJson glibcRand (fun _ => false)
    storeLost pooledMoment cerealJson_lawful pooledStart pooledStart_filled
    ⟨rfl, by decide, by decide⟩
  refine ⟨congrArg Prod.fst result, fun harmless => ?_⟩
  -- The pool was the only record.
  have gone (key : Bytes) :
      ((pooledCall storeLost).2.1 rootServerConf.cacheService).lookup key = none := by
    refine (records key).trans ?_
    rw [if_neg fun last => last.1 (pooledStart_unnamed storeLost),
      if_neg fun mine => by cases mine.2]
    split
    · rfl
    · next other =>
        have apart : key ≠ rootServerConf.txPoolKey := fun pool => other ⟨⟨rfl, pool⟩, rfl⟩
        exact Finmap.lookup_insert_of_ne _ apart
  rcases harmless.kept pooledPayment (by decide) (by decide +kernel) with pooled | stored
  · rw [poolOf, gone] at pooled
    cases pooled
  · obtain ⟨block, ⟨text, found, -⟩, -⟩ := stored
    cases (gone block._id).symm.trans found

end FPayNode.BlockFaults
