import FPayNode.BlockRounds
import FPayNode.CerealJson

/-!
Accounts and control records share one key space. What a transaction does to
the locks, the set of child nodes, the blocks and the pool, when its `_from`
or `_to` is one of their keys.
-/

namespace FPayNode.ControlRecords

open CommandProgram DecimalText RedisServer RedisCache Messages NodeService
open RootTransaction BlockCreation BlockRounds CerealJson

/-- The record stays when the `INCRBY` is refused or adds zero to a number. -/
theorem afterIncr_same_iff (db : Db) (key : Bytes) (increment : Int64) :
    (afterIncr db key increment).lookup key = db.lookup key ↔
      incremented db key increment = none ∨ increment = 0 ∧ (db.lookup key).isSome := by
  cases answer : incremented db key increment with
  | none => simp [afterIncr_refused db key increment answer]
  | some n =>
      obtain ⟨value, fits⟩ := incremented_some db key increment n answer
      have counted := ((incremented_isSome_iff db key increment).mp (by simp [answer])).1
      rw [afterIncr_accepted db key increment n answer, Finmap.lookup_insert]
      simp only [reduceCtorEq, false_or]
      constructor
      · intro same
        rw [← same] at value ⊢
        simp only [reading, atoll_decimal n fits] at value
        refine ⟨Int64.toInt_inj.mp ?_, rfl⟩
        simpa using value
      · rintro ⟨rfl, present⟩
        obtain ⟨record, found⟩ := Option.isSome_iff_exists.mp present
        rw [found] at value counted ⊢
        obtain ⟨old, count⟩ := Option.isSome_iff_exists.mp counted
        rw [counter_reading _ _ count, Int64.toInt_zero, add_zero] at value
        subst value
        cases record with
        | string text => rw [(parseExact_some text _ count).2]
        | list items => cases count
        | set members => cases count

/-- A text that is no number survives every `INCRBY`. -/
theorem afterIncr_text (db : Db) (key other text : Bytes) (increment : Int64)
    (refused : parseExact text = none) (held : db.lookup key = some (.string text)) :
    (afterIncr db other increment).lookup key = some (.string text) := by
  by_cases same : key = other
  · subst same
    have answer : incremented db key increment = none := by
      simp [incremented, counter, held, refused]
    rw [afterIncr_refused db key increment answer, held]
  · rw [afterIncr_lookup_other db other key increment same, held]

section Control
variable (config : Config) (cereal : Cereal)

def lockKeys : List Bytes := [config.BCLock, builderLock, initBalanceLocker]

/-- A key of the block service that stands for a block. -/
def BlockKey (throws : Bytes → Bool) (servers : Servers) (key : Bytes) : Prop :=
  key = config.lastBlockKey ∨ key = config.initBlockId ∨
    ∃ memory, (readBlock config cereal throws memory servers key).isSome

/-- A key of the cache service that is no account. -/
def ControlKey (throws : Bytes → Bool) (servers : Servers) (key : Bytes) : Prop :=
  key ∈ lockKeys config ∨ key = config.childNodesKey ∨ key = config.txPoolKey ∨
    config.dbService = config.cacheService ∧ BlockKey config cereal throws servers key

variable (throws : Bytes → Bool)

/-- The control records after a call: all as before, but for the transaction
appended to the pool. -/
structure ControlKept (before after : Servers) (tx : Transaction) : Prop where
  locks : ∀ key ∈ lockKeys config,
    (after config.cacheService).lookup key = (before config.cacheService).lookup key
  children : (after config.cacheService).lookup config.childNodesKey =
    (before config.cacheService).lookup config.childNodesKey
  blocks : ∀ key, BlockKey config cereal throws before key →
    (after config.dbService).lookup key = (before config.dbService).lookup key
  pool : (after config.cacheService).lookup config.txPoolKey =
      (before config.cacheService).lookup config.txPoolKey ∨
    (after config.cacheService).lookup config.txPoolKey =
      some (.list (poolOf config (before config.cacheService) ++
        [cereal.transaction.toString tx]))

/-- The value of a control record pays for nothing. -/
def Unspent (before : Servers) (tx : Transaction) (sent : List (Effect × Answer)) : Prop :=
  ControlKey config cereal throws before tx._from →
    ∀ entry ∈ sent, ∀ key increment,
      entry.1 ≠ .redis config.cacheService (.incrBy key increment)

def ControlUntouched (self : FPService) (servers : Servers) (tx : Transaction) : Prop :=
  ControlKept config cereal throws servers
    (after (serve throws) (handleTransaction config cereal self) servers tx) tx ∧
  Unspent config cereal throws servers tx
    (trace (serve throws) (handleTransaction config cereal self tx) servers)

/-- No transfer is made, or it is made between accounts, or its credit to a
control key has no effect there. -/
def SparesControl (servers : Servers) (tx : Transaction) : Prop :=
  tx._from = [] ∨ ¬ Covered (servers config.cacheService) tx ∨
    ¬ ControlKey config cereal throws servers tx._from ∧
      (ControlKey config cereal throws servers tx._to → tx._to = [] ∨
        incremented (servers config.cacheService) tx._to tx._value = none ∨
        tx._value = 0 ∧ ((servers config.cacheService).lookup tx._to).isSome)

/-- The pool has a record of its own. -/
structure PoolApart : Prop where
  locks : config.txPoolKey ∉ lockKeys config
  children : config.txPoolKey ≠ config.childNodesKey
  blocks : config.dbService = config.cacheService →
    config.txPoolKey ≠ config.lastBlockKey ∧ config.txPoolKey ≠ config.initBlockId

/-! The parts of a call on one record. -/

theorem transferred_lookup_other (db : Db) (tx : Transaction) (key : Bytes)
    (from_ : key ≠ tx._from) (to_ : tx._to ≠ [] → key ≠ tx._to) :
    (transferred db tx).lookup key = db.lookup key := by
  simp only [transferred, credited, debited]
  split
  · split
    · exact afterIncr_lookup_other db _ key _ from_
    · next known =>
        rw [afterIncr_lookup_other _ _ key _ (to_ known),
          afterIncr_lookup_other db _ key _ from_]
  · rfl

/-- A credit to another account than the sender's meets the record as it was
before the call. -/
theorem transferred_lookup_to (db : Db) (tx : Transaction) (covered : Covered db tx)
    (known : tx._to ≠ []) (apart : tx._to ≠ tx._from) :
    (transferred db tx).lookup tx._to = (afterIncr db tx._to tx._value).lookup tx._to := by
  have record := afterIncr_lookup_other db tx._from tx._to (-tx._value) apart
  have answer : incremented (afterIncr db tx._from (-tx._value)) tx._to tx._value =
      incremented db tx._to tx._value := by
    simp only [incremented, record]
  simp only [transferred, covered, ↓reduceIte, credited, known, debited]
  cases found : incremented db tx._to tx._value with
  | none => rw [afterIncr_refused _ _ _ (answer.trans found), afterIncr_refused _ _ _ found, record]
  | some n =>
      rw [afterIncr_accepted _ _ _ n (answer.trans found), afterIncr_accepted _ _ _ n found,
        Finmap.lookup_insert, Finmap.lookup_insert]

theorem submitted_lookup_other (db : Db) (tx : Transaction) (key : Bytes)
    (other : key ≠ config.txPoolKey) :
    (submitted config cereal db tx).lookup key = db.lookup key := by
  simp only [submitted]
  split
  · rfl
  · exact afterPush_lookup_other db _ key _ other

theorem submitted_string (db : Db) (tx : Transaction) (text : Bytes)
    (found : db.lookup config.txPoolKey = some (.string text)) :
    (submitted config cereal db tx).lookup config.txPoolKey = some (.string text) := by
  simp only [submitted]
  split
  · exact found
  · simp [afterPush, exec, found]

theorem submitted_pool (db : Db) (tx : Transaction) :
    (submitted config cereal db tx).lookup config.txPoolKey = db.lookup config.txPoolKey ∨
      (submitted config cereal db tx).lookup config.txPoolKey =
        some (.list (poolOf config db ++ [cereal.transaction.toString tx])) := by
  simp only [submitted]
  split
  · exact Or.inl rfl
  · by_cases accepted : (exec (.rpush config.txPoolKey [cereal.transaction.toString tx]) db).1 =
        .error
    · left
      simp only [afterPush, exec] at accepted ⊢
      split at accepted
      · cases accepted
      · cases accepted
      · rfl
    · exact Or.inr (afterPush_accepted db _ _ accepted)

/-- What is read as a block is a text, and not a number. -/
theorem readable_text (lawful : cereal.Lawful) (memory : Uninitialized) (servers : Servers)
    (key : Bytes) (readable : (readBlock config cereal throws memory servers key).isSome) :
    ∃ text, (servers config.dbService).lookup key = some (.string text) ∧
      parseExact text = none := by
  have loads (text : Bytes)
      (success : (returned (cereal.block.fromString text (Block.fresh memory))).isSome) :
      (cereal.block.fromString text (Block.fresh memory)).1 = true := by
    by_contra failed
    simp [returned, failed] at success
  simp only [readBlock, run_getBlock, storedText] at readable
  split at readable
  · simp [lawful.block.nothing, returned] at readable
  · split at readable
    · next text found => exact ⟨text, found, lawful.block.object text _ (loads text readable)⟩
    · simp [lawful.block.nothing, returned] at readable

section Call
variable (self : FPService) (root : self._nodeRole = .root) (lawful : cereal.Lawful)
  (servers : Servers) (tx : Transaction)

theorem spared_transfer (known : tx._from ≠ [])
    (spares : SparesControl config cereal throws servers tx) (key : Bytes)
    (control : ControlKey config cereal throws servers key) :
    (transferred (servers config.cacheService) tx).lookup key =
      (servers config.cacheService).lookup key := by
  rcases spares with unknown | uncovered | ⟨account, credit⟩
  · exact absurd unknown known
  · simp [transferred, uncovered]
  · have from_ : key ≠ tx._from := by
      rintro rfl
      exact account control
    -- What is left to check is a credit to the control key itself.
    by_cases paid : tx._to ≠ [] ∧ key = tx._to
    · obtain ⟨named, rfl⟩ := paid
      by_cases covered : Covered (servers config.cacheService) tx
      · rw [transferred_lookup_to _ tx covered named from_, afterIncr_same_iff]
        exact (credit control).resolve_left named
      · simp [transferred, covered]
    · exact transferred_lookup_other _ tx key from_ fun named same => paid ⟨named, same⟩

theorem spared_handled (spares : SparesControl config cereal throws servers tx) (key : Bytes)
    (different : key ≠ config.txPoolKey)
    (control : ControlKey config cereal throws servers key) :
    (handled config cereal (servers config.cacheService) tx).lookup key =
      (servers config.cacheService).lookup key := by
  simp only [handled]
  split
  · rfl
  · next known =>
      rw [submitted_lookup_other config cereal _ tx key different,
        spared_transfer config cereal throws servers tx known spares key control]

theorem spared_pool (spares : SparesControl config cereal throws servers tx) :
    (handled config cereal (servers config.cacheService) tx).lookup config.txPoolKey =
        (servers config.cacheService).lookup config.txPoolKey ∨
      (handled config cereal (servers config.cacheService) tx).lookup config.txPoolKey =
        some (.list (poolOf config (servers config.cacheService) ++
          [cereal.transaction.toString tx])) := by
  simp only [handled]
  split
  · exact Or.inl rfl
  · next known =>
      have pool := spared_transfer config cereal throws servers tx known spares config.txPoolKey
        (Or.inr (Or.inr (Or.inl rfl)))
      rcases submitted_pool config cereal (transferred (servers config.cacheService) tx) tx with
        same | appended
      · exact Or.inl (same.trans pool)
      · right
        rw [appended, poolOf, pool]
        rfl

include root lawful

/-- A block that can be read is left alone by every transaction, also by one
that names its id. -/
theorem stored_block_stays (memory : Uninitialized) (key : Bytes)
    (readable : (readBlock config cereal throws memory servers key).isSome) :
    (after (serve throws) (handleTransaction config cereal self) servers tx
      config.dbService).lookup key = (servers config.dbService).lookup key := by
  obtain ⟨text, found, refused⟩ :=
    readable_text config cereal throws lawful memory servers key readable
  rw [after_handleTransaction config cereal self throws tx servers root lawful, found]
  by_cases shared : config.dbService = config.cacheService
  · rw [shared] at found
    rw [shared, Function.update_self]
    simp only [handled, transferred, credited, debited]
    have incr (db : Db) (other : Bytes) (increment : Int64)
        (held : db.lookup key = some (.string text)) :
        (afterIncr db other increment).lookup key = some (.string text) :=
      afterIncr_text db key other text increment refused held
    have push (db : Db) (held : db.lookup key = some (.string text)) :
        (submitted config cereal db tx).lookup key = some (.string text) := by
      by_cases pool : key = config.txPoolKey
      · subst pool
        exact submitted_string config cereal db tx text held
      · rw [submitted_lookup_other config cereal db tx key pool, held]
    split
    · exact found
    · apply push
      split
      · split
        · exact incr _ _ _ found
        · exact incr _ _ _ (incr _ _ _ found)
      · exact found
  · rw [Function.update_of_ne shared, found]

theorem spares_kept (apart : PoolApart config)
    (spares : SparesControl config cereal throws servers tx) :
    ControlKept config cereal throws servers
      (after (serve throws) (handleTransaction config cereal self) servers tx) tx := by
  have whole := after_handleTransaction config cereal self throws tx servers root lawful
  have kept := spared_handled config cereal throws servers tx spares
  constructor
  · intro key lock
    rw [whole, Function.update_self]
    exact kept key (fun same => apart.locks (same ▸ lock)) (Or.inl lock)
  · rw [whole, Function.update_self]
    exact kept _ apart.children.symm (Or.inr (Or.inl rfl))
  · intro key block
    by_cases shared : config.dbService = config.cacheService
    · have control : ControlKey config cereal throws servers key :=
        Or.inr (Or.inr (Or.inr ⟨shared, block⟩))
      obtain last | first | ⟨memory, readable⟩ := block
      · rw [whole, shared, Function.update_self]
        exact kept key (fun same => (apart.blocks shared).1 (same.symm.trans last)) control
      · rw [whole, shared, Function.update_self]
        exact kept key (fun same => (apart.blocks shared).2 (same.symm.trans first)) control
      · exact stored_block_stays config cereal throws self root lawful servers tx memory key
          readable
    · rw [whole, Function.update_of_ne shared]
  · rw [whole, Function.update_self]
    exact spared_pool config cereal throws servers tx spares

theorem spares_unspent (spares : SparesControl config cereal throws servers tx) :
    Unspent config cereal throws servers tx
      (trace (serve throws) (handleTransaction config cereal self tx) servers) := by
  intro control entry member key increment
  have written := lawful.transaction.nonempty tx
  rcases spares with unknown | uncovered | ⟨account, -⟩
  · rw [handleTransaction_root config cereal self root tx written, if_pos unknown] at member
    cases member
  · by_cases unknown : tx._from = []
    · rw [handleTransaction_root config cereal self root tx written, if_pos unknown] at member
      cases member
    · rw [trace_handleTransaction config cereal self throws tx servers root written unknown,
        if_neg uncovered] at member
      rcases List.mem_cons.mp member with rfl | later
      · simp
      · rw [trace_submit config cereal throws tx servers entry later]
        simp
  · exact absurd control account

/-- A control record whose value passes the balance check is spent. -/
theorem covered_spends (known : tx._from ≠ [])
    (covered : Covered (servers config.cacheService) tx)
    (unspent : Unspent config cereal throws servers tx
      (trace (serve throws) (handleTransaction config cereal self tx) servers)) :
    ¬ ControlKey config cereal throws servers tx._from := by
  intro control
  rw [trace_handleTransaction config cereal self throws tx servers root
    (lawful.transaction.nonempty tx) known, if_pos covered] at unspent
  exact unspent control (.redis config.cacheService (.incrBy tx._from (-tx._value)), _)
    (List.mem_cons_of_mem _ List.mem_cons_self) _ _ rfl

theorem kept_credit (known : tx._from ≠ [])
    (covered : Covered (servers config.cacheService) tx) (named : tx._to ≠ [])
    (different : tx._to ≠ tx._from) (control : ControlKey config cereal throws servers tx._to)
    (kept : ControlKept config cereal throws servers
      (after (serve throws) (handleTransaction config cereal self) servers tx) tx) :
    incremented (servers config.cacheService) tx._to tx._value = none ∨
      tx._value = 0 ∧ ((servers config.cacheService).lookup tx._to).isSome := by
  rw [after_handleTransaction config cereal self throws tx servers root lawful] at kept
  have whole : handled config cereal (servers config.cacheService) tx =
      submitted config cereal (transferred (servers config.cacheService) tx) tx := by
    simp [handled, known]
  rw [whole] at kept
  rw [← afterIncr_same_iff, ← transferred_lookup_to _ tx covered named different]
  by_cases pool : tx._to = config.txPoolKey
  · cases answer : incremented (servers config.cacheService) tx._to tx._value with
    | none =>
        rw [transferred_lookup_to _ tx covered named different,
          afterIncr_refused _ _ _ answer]
    | some n =>
        -- The pool became a text, which the append is refused on.
        have text : (transferred (servers config.cacheService) tx).lookup tx._to =
            some (.string (decimal n)) := by
          rw [transferred_lookup_to _ tx covered named different,
            afterIncr_accepted _ _ _ n answer, Finmap.lookup_insert]
        have after_ := kept.pool
        rw [Function.update_self, submitted_string config cereal _ tx _ (pool ▸ text)] at after_
        rcases after_ with same | appended
        · rw [text, pool, same]
        · cases appended
  · have after_ : (submitted config cereal (transferred (servers config.cacheService) tx)
        tx).lookup tx._to = (servers config.cacheService).lookup tx._to := by
      rcases control with lock | child | same | ⟨shared, block⟩
      · simpa using kept.locks _ lock
      · rw [child]
        simpa using kept.children
      · exact absurd same pool
      · have kept := kept.blocks _ block
        rwa [shared, Function.update_self] at kept
    rw [← after_, submitted_lookup_other config cereal _ tx _ pool]

end Call

/-- A call leaves the control records alone and spends none of them exactly
when it makes no transfer, or one from an account whose credit to a control
key, if it has one, is without effect. -/
theorem control_untouched_iff (self : FPService) (root : self._nodeRole = .root)
    (lawful : cereal.Lawful) (apart : PoolApart config) (servers : Servers) (tx : Transaction) :
    ControlUntouched config cereal throws self servers tx ↔
      SparesControl config cereal throws servers tx := by
  constructor
  · rintro ⟨kept, unspent⟩
    by_cases unknown : tx._from = []
    · exact Or.inl unknown
    by_cases covered : Covered (servers config.cacheService) tx
    · have account := covered_spends config cereal throws self root lawful servers tx unknown
        covered unspent
      refine Or.inr (Or.inr ⟨account, fun control => ?_⟩)
      by_cases named : tx._to = []
      · exact Or.inl named
      · refine Or.inr (kept_credit config cereal throws self root lawful servers tx unknown covered
          named ?_ control kept)
        rintro same
        exact account (same ▸ control)
    · exact Or.inr (Or.inl covered)
  · intro spares
    exact ⟨spares_kept config cereal throws self root lawful servers tx apart spares,
      spares_unspent config cereal throws self root lawful servers tx spares⟩

end Control

theorem shipped_poolApart : PoolApart rootServerConf where
  locks := by decide +kernel
  children := by decide +kernel
  blocks := fun _ => ⟨by decide +kernel, by decide +kernel⟩

theorem holding_account (key text other : Bytes) (number : (parseExact text).isSome)
    (named : other ∉ controlKeys rootServerConf) :
    ¬ ControlKey rootServerConf cerealJson (fun _ => false) (holding key text) other := by
  simp only [controlKeys, List.mem_cons, List.not_mem_nil, or_false, not_or] at named
  obtain ⟨lock, builder, init, child, pool, last, first⟩ := named
  rintro (held | same | same | ⟨-, same | same | ⟨memory, readable⟩⟩)
  · simp [lockKeys, lock, builder, init] at held
  · exact child same
  · exact pool same
  · exact last same
  · exact first same
  · obtain ⟨stored, found, refused⟩ :=
      readable_text rootServerConf cerealJson (fun _ => false) cerealJson_lawful memory _ other
        readable
    by_cases own : other = key
    · rw [holding, own, Finmap.lookup_insert] at found
      cases found
      rw [refused] at number
      cases number
    · rw [holding, Finmap.lookup_insert_of_ne _ own, Finmap.lookup_empty] at found
      cases found

theorem control_untouched_iff_payment :
    ControlUntouched rootServerConf cerealJson (fun _ => false) rootService
      (funded alice) ⟨ascii "t1", alice, bob, 4, 0⟩ :=
  (control_untouched_iff rootServerConf cerealJson (fun _ => false) rootService rfl
    cerealJson_lawful shipped_poolApart (funded alice)
    ⟨ascii "t1", alice, bob, 4, 0⟩).mpr
    (Or.inr (Or.inr ⟨holding_account _ _ alice (by decide +kernel) (by decide +kernel),
      fun control => absurd control
        (holding_account _ _ bob (by decide +kernel) (by decide +kernel))⟩))

/-- The builder lock held by service 1 is read as a balance of 1: it is paid
out, and the lock then belongs to nobody. -/
theorem held_lock_is_paid_out :
    ¬ ControlUntouched rootServerConf cerealJson (fun _ => false) rootService
      (holding builderLock rootService._id)
      ⟨ascii "t1", builderLock, ascii "mallory", 1, 0⟩ := by
  rintro ⟨kept, -⟩
  have lock := kept.locks builderLock (by simp [lockKeys])
  revert lock
  decide +kernel

end FPayNode.ControlRecords
