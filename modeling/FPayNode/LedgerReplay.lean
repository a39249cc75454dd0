import FPayNode.BlockCreation
import FPayNode.CerealJson
import FPayNode.RootTransaction

/-!
The ledger exists twice: as live balances, changed by every transfer, and as
the pool of transactions, which becomes blocks and is replayed by
`updateBalance`. Sums are taken in 64 bits as the replay takes them; a
balance that fits is determined by its value modulo their range.
-/

namespace FPayNode.LedgerReplay

open CommandProgram DecimalText RedisServer RedisCache Messages NodeService RootTransaction
open BlockCreation

/-- The change a transaction asks for at one account. -/
def moved (tx : Transaction) (account : Bytes) : Int64 :=
  (if account = tx._from then -tx._value else 0) + (if account = tx._to then tx._value else 0)

def movedAll (txs : List Transaction) (account : Bytes) : Int64 :=
  (txs.map fun tx => moved tx account).sum

/-! The replay. -/

def sumAt (account : Bytes) (map : List (Bytes × Int64)) : Int64 :=
  (map.map fun pair => if pair.1 = account then pair.2 else 0).sum

theorem sumAt_increase (account key : Bytes) (increment : Int64) (map : List (Bytes × Int64)) :
    sumAt account (increase key increment map) =
      sumAt account map + if account = key then increment else 0 := by
  induction map with
  | nil => simp [sumAt, increase, eq_comm]
  | cons pair rest ih =>
      obtain ⟨other, sum⟩ := pair
      simp only [increase]
      -- The key is at this entry, belongs before it, or comes later.
      split
      · next same =>
          subst other
          by_cases here : key = account
          · subst account
            simp only [sumAt, List.map_cons, List.sum_cons, ↓reduceIte]
            ac_rfl
          · simp [sumAt, here, Ne.symm here]
      · split
        · simp only [sumAt, List.map_cons, List.sum_cons, eq_comm]
          ac_rfl
        · simp only [sumAt, List.map_cons, List.sum_cons] at ih ⊢
          rw [ih]
          ac_rfl

theorem increase_keys (key : Bytes) (increment : Int64) (map : List (Bytes × Int64))
    (pair : Bytes × Int64) (member : pair ∈ increase key increment map) :
    pair.1 = key ∨ ∃ old ∈ map, pair.1 = old.1 := by
  induction map with
  | nil =>
      simp only [increase, List.mem_singleton] at member
      exact .inl (by rw [member])
  | cons entry rest ih =>
      obtain ⟨other, sum⟩ := entry
      simp only [increase] at member
      split at member
      · rcases List.mem_cons.mp member with rfl | later
        · exact .inr ⟨(other, sum), by simp, rfl⟩
        · exact .inr ⟨pair, by simp [later], rfl⟩
      · split at member
        · rcases List.mem_cons.mp member with rfl | later
          · exact .inl rfl
          · exact .inr ⟨pair, later, rfl⟩
        · rcases List.mem_cons.mp member with rfl | later
          · exact .inr ⟨(other, sum), by simp, rfl⟩
          · rcases ih later with same | ⟨old, inside, same⟩
            · exact .inl same
            · exact .inr ⟨old, by simp [inside], same⟩

/-- The fold of `balanceMap` from any map. -/
theorem sumAt_fold (account : Bytes) (txs : List Transaction) (map : List (Bytes × Int64)) :
    sumAt account (txs.foldl (fun map tx =>
      increase tx._to tx._value (increase tx._from (-tx._value) map)) map) =
      sumAt account map + movedAll txs account := by
  induction txs generalizing map with
  | nil => simp [movedAll]
  | cons tx txs ih =>
      rw [List.foldl_cons, ih, sumAt_increase, sumAt_increase]
      simp only [movedAll, moved, List.map_cons, List.sum_cons]
      ac_rfl

theorem sumAt_balanceMap (account : Bytes) (txs : List Transaction) :
    sumAt account (balanceMap txs) = movedAll txs account := by
  simpa [sumAt, balanceMap] using sumAt_fold account txs []

theorem balanceMap_named (txs : List Transaction)
    (named : ∀ tx ∈ txs, tx._from ≠ [] ∧ tx._to ≠ []) :
    ∀ pair ∈ balanceMap txs, pair.1 ≠ [] := by
  -- The induction is over the transactions, from any map with named keys.
  suffices fold : ∀ map : List (Bytes × Int64), (∀ pair ∈ map, pair.1 ≠ []) →
      ∀ pair ∈ txs.foldl (fun map tx =>
        increase tx._to tx._value (increase tx._from (-tx._value) map)) map, pair.1 ≠ [] from
    fold [] (by simp)
  induction txs with
  | nil => exact fun _ keys => keys
  | cons tx txs ih =>
      intro map keys
      obtain ⟨sender, receiver⟩ := named tx (by simp)
      apply ih fun other member => named other (by simp [member])
      intro pair member
      rcases increase_keys _ _ _ pair member with same | ⟨old, inside, same⟩
      · exact same ▸ receiver
      · rw [same]
        rcases increase_keys _ _ _ old inside with sameSender | ⟨older, first, sameOld⟩
        · exact sameSender ▸ sender
        · exact sameOld ▸ keys older first

section Replay
variable (config : Config) (throws : Bytes → Bool)

theorem applyAll_balance (map : List (Bytes × Int64)) (servers : Servers)
    (named : ∀ pair ∈ map, pair.1 ≠ [])
    (succeeds : Succeeds throws servers (applyAll config map)) (account : Bytes) :
    Int64.ofInt (balanceOf ((run (serve throws) (applyAll config map) servers).2
        config.cacheService) account) =
      Int64.ofInt (balanceOf (servers config.cacheService) account) + sumAt account map := by
  induction map generalizing servers with
  | nil => simp [applyAll, sumAt]
  | cons pair rest ih =>
      have key : pair.1 ≠ [] := named pair (by simp)
      simp only [Succeeds, applyAll, incrBy_form, key, ↓reduceIte, Program.issue_bind,
        Program.finish_bind, trace_issue, List.forall_mem_cons, run_issue] at succeeds ⊢
      rw [ih _ (fun other member => named other (by simp [member])) succeeds.2]
      have accepted : (incremented (servers config.cacheService) pair.1 pair.2).isSome := by
        rw [← incrBy_succeeds_iff]
        exact (succeeded_reply _).mp succeeds.1
      have change := afterIncr_reading (servers config.cacheService) pair.1 account pair.2
      simp only [serve, Function.update_self, balanceOf]
      simp only [afterIncr] at change
      rw [change]
      by_cases same : account = pair.1
      · subst account
        simp only [accepted, and_self, ↓reduceIte, sumAt, List.map_cons, List.sum_cons,
          Int64.ofInt_add, Int64.ofInt_toInt]
        ac_rfl
      · simp [same, sumAt, Ne.symm same]

end Replay

/-! The live ledger. -/

/-- The call is refused, or its transfer is covered and has a receiver. -/
def Settles (db : Db) (tx : Transaction) : Prop :=
  tx._from = [] ∨ (Covered db tx ∧ tx._to ≠ [])

instance (db : Db) (tx : Transaction) : Decidable (Settles db tx) :=
  inferInstanceAs (Decidable (_ ∨ _))

section Live
variable (config : Config) (cereal : Cereal)

/-- A call that succeeds does not use the pool as an account. -/
theorem transferred_pool (db : Db) (tx : Transaction) (named : config.txPoolKey ≠ [])
    (accepted : Accepted config cereal tx db) :
    (transferred db tx).lookup config.txPoolKey = db.lookup config.txPoolKey := by
  have push := accepted.push named
  simp only [transferred] at push ⊢
  by_cases covered : Covered db tx
  · simp only [covered, ↓reduceIte] at push ⊢
    -- A number at the pool's key would make the append fail.
    have receiver : tx._to ≠ config.txPoolKey := by
      intro same
      have written : tx._to ≠ [] := same ▸ named
      obtain ⟨text, found⟩ := afterIncr_string _ _ _ (accepted.credit covered written)
      apply push
      apply rpush_string _ _ text
      rw [credited, if_neg written, ← same]
      exact found
    have kept : (credited (debited db tx) tx).lookup config.txPoolKey =
        (debited db tx).lookup config.txPoolKey := by
      simp only [credited]
      split
      · rfl
      · exact afterIncr_lookup_other _ _ _ _ (Ne.symm receiver)
    rw [kept]
    apply afterIncr_lookup_other
    intro same
    obtain ⟨text, found⟩ := afterIncr_string _ _ _ (accepted.debit covered)
    apply push
    apply rpush_string _ _ text
    rw [kept, same]
    exact found
  · simp [covered]

theorem handled_pool (db : Db) (tx : Transaction) (named : config.txPoolKey ≠ [])
    (known : tx._from ≠ []) (accepted : Accepted config cereal tx db) :
    poolOf config (handled config cereal db tx) =
      poolOf config db ++ [cereal.transaction.toString tx] := by
  have pushed := afterPush_accepted _ _ _ (accepted.push named)
  rw [transferred_pool config cereal db tx named accepted] at pushed
  simp [poolOf, handled, known, submitted, named, pushed, itemsIn]

theorem handled_moved (db : Db) (tx : Transaction) (known : tx._from ≠ [])
    (accepted : Accepted config cereal tx db) (settles : Settles db tx) (account : Bytes) :
    Int64.ofInt (balanceOf (handled config cereal db tx) account) =
      Int64.ofInt (balanceOf db account) + moved tx account := by
  obtain ⟨covered, written⟩ := settles.resolve_left known
  rw [handled_balance config cereal db tx (fun _ => accepted)]
  simp only [known, covered, written, ne_eq, not_false_eq_true, and_self, true_and, ↓reduceIte,
    Int64.ofInt_add, moved]
  split_ifs <;> simp [-Int64.toInt_neg]

variable (self : FPService) (throws : Bytes → Bool)

/-- What `createBlock` makes of the pool. -/
def poolBlock (memory : Nat → Uninitialized) (db : Db) : Block :=
  { Block.fresh (memory 0) with
    _txList := loadAll cereal (fun i => memory (i + 1)) (poolOf config db) }

/-- 'Returned true', 'applied to both balances' and 'appended to the pool'. -/
def Coincide (servers : Servers) (tx : Transaction) : Prop :=
  ((run (serve throws) (handleTransaction config cereal self tx) servers).1 = .ok true ↔
    Applied config tx
      (trace (serve throws) (handleTransaction config cereal self tx) servers)) ∧
  (Applied config tx
      (trace (serve throws) (handleTransaction config cereal self tx) servers) ↔
    poolOf config ((run (serve throws) (handleTransaction config cereal self tx) servers).2
      config.cacheService) =
      poolOf config (servers config.cacheService) ++ [cereal.transaction.toString tx])

variable (root : self._nodeRole = .root) (lawful : cereal.Lawful)
include root lawful

theorem coincide_iff (named : config.txPoolKey ≠ []) (servers : Servers) (tx : Transaction)
    (succeeds : Succeeds throws servers (handleTransaction config cereal self tx)) :
    Coincide config cereal self throws servers tx ↔
      Settles (servers config.cacheService) tx := by
  have written := lawful.transaction.nonempty tx
  simp only [Coincide, Settles]
  rw [run_handleTransaction config cereal self throws tx servers root written]
  by_cases known : tx._from = []
  · have nothing : ¬ Applied config tx
        (trace (serve throws) (handleTransaction config cereal self tx) servers) := by
      rw [handleTransaction_root config cereal self root tx written, if_pos known]
      simp [Applied]
    simp [nothing, known, handled]
  · have accepted :=
      accepted_of_succeeds config cereal self throws tx servers root lawful succeeds known
    rw [applied_iff config cereal self throws tx servers root written known accepted]
    simp [known, handled_pool config cereal _ tx named known accepted]

theorem coincide_run_iff (named : config.txPoolKey ≠ []) (start : Servers)
    (txs : List Transaction)
    (succeed : AllSucceed throws start (handleTransaction config cereal self) txs) :
    Throughout (serve throws) (handleTransaction config cereal self)
        (Coincide config cereal self throws) start txs ↔
      Throughout (serve throws) (handleTransaction config cereal self)
        (fun servers tx => Settles (servers config.cacheService) tx) start txs := by
  induction txs generalizing start with
  | nil => simp
  | cons tx txs ih =>
      exact and_congr (coincide_iff config cereal self throws root lawful named start tx
        succeed.1) (ih _ succeed.2)

/-- Over a run in which every call settles, the pool lists the transfers and
the balances have moved by them. -/
theorem run_settles (named : config.txPoolKey ≠ []) (start : Servers) (txs : List Transaction)
    (succeed : AllSucceed throws start (handleTransaction config cereal self) txs)
    (settle : Throughout (serve throws) (handleTransaction config cereal self)
      (fun servers tx => Settles (servers config.cacheService) tx) start txs) :
    ∃ kept : List Transaction, (∀ tx ∈ kept, tx ∈ txs ∧ tx._from ≠ [] ∧ tx._to ≠ []) ∧
      poolOf config (runAll (serve throws) (handleTransaction config cereal self) start txs
        config.cacheService) =
        poolOf config (start config.cacheService) ++ kept.map cereal.transaction.toString ∧
      ∀ account, Int64.ofInt (balanceOf (runAll (serve throws)
          (handleTransaction config cereal self) start txs config.cacheService) account) =
        Int64.ofInt (balanceOf (start config.cacheService) account) +
          movedAll kept account := by
  induction txs generalizing start with
  | nil => exact ⟨[], by simp [movedAll]⟩
  | cons tx txs ih =>
      obtain ⟨kept, members, pool, balances⟩ := ih _ succeed.2 settle.2
      rw [after_cache config cereal self throws tx start root lawful] at pool balances
      -- A refused call leaves no trace; any other is the next of the list.
      by_cases known : tx._from = []
      · refine ⟨kept, ?_, ?_, ?_⟩
        · intro other member
          obtain ⟨inside, ends⟩ := members other member
          exact ⟨by simp [inside], ends⟩
        · simpa [handled, known] using pool
        · simpa [handled, known] using balances
      · have accepted :=
          accepted_of_succeeds config cereal self throws tx start root lawful succeed.1 known
        have written := (settle.1.resolve_left known).2
        refine ⟨tx :: kept, ?_, ?_, ?_⟩
        · intro other member
          rcases List.mem_cons.mp member with rfl | later
          · exact ⟨by simp, known, written⟩
          · obtain ⟨inside, ends⟩ := members other later
            exact ⟨by simp [inside], ends⟩
        · rw [handled_pool config cereal _ tx named known accepted] at pool
          simpa using pool
        · intro account
          have moves := balances account
          rw [handled_moved config cereal _ tx known accepted settle.1] at moves
          rw [runAll_cons, moves]
          simp only [movedAll, List.map_cons, List.sum_cons]
          ac_rfl

/-- The two ledgers agree over a run exactly when every call of it settles. -/
theorem replay_matches_iff (named : config.txPoolKey ≠ []) (memory : Nat → Uninitialized)
    (start : Servers) (txs : List Transaction) (clean : ∀ tx ∈ txs, tx.Clean)
    (empty : (start config.cacheService).lookup config.txPoolKey = none)
    (succeed : AllSucceed throws start (handleTransaction config cereal self) txs)
    (replayed : Succeeds throws start (updateBalance config (poolBlock config cereal memory
      (runAll (serve throws) (handleTransaction config cereal self) start txs
        config.cacheService)))) :
    (Throughout (serve throws) (handleTransaction config cereal self)
        (Coincide config cereal self throws) start txs ∧
      ∀ account,
        balanceOf ((run (serve throws) (updateBalance config (poolBlock config cereal memory
          (runAll (serve throws) (handleTransaction config cereal self) start txs
            config.cacheService))) start).2 config.cacheService) account =
        balanceOf (runAll (serve throws) (handleTransaction config cereal self) start txs
          config.cacheService) account) ↔
    Throughout (serve throws) (handleTransaction config cereal self)
      (fun servers tx => Settles (servers config.cacheService) tx) start txs := by
  rw [coincide_run_iff config cereal self throws root lawful named start txs succeed]
  constructor
  · exact fun both => both.1
  · intro settle
    refine ⟨settle, fun account => ?_⟩
    obtain ⟨kept, members, pool, balances⟩ :=
      run_settles config cereal self throws root lawful named start txs succeed settle
    have start_pool : poolOf config (start config.cacheService) = [] := by
      simp [poolOf, empty, itemsIn]
    rw [start_pool, List.nil_append] at pool
    have block : (poolBlock config cereal memory
        (runAll (serve throws) (handleTransaction config cereal self) start txs
          config.cacheService))._txList = kept := by
      rw [poolBlock, pool]
      exact loadAll_toString cereal lawful _ kept fun tx member => clean tx (members tx member).1
    simp only [updateBalance] at replayed ⊢
    rw [block] at replayed ⊢
    apply ofInt_inj _ _ (balanceOf_fits _ _) (balanceOf_fits _ _)
    rw [applyAll_balance config throws _ start
        (balanceMap_named kept fun tx member => (members tx member).2) replayed,
      sumAt_balanceMap, balances]

end Live

def memory : Nat → Uninitialized := fun _ => ⟨0, 0⟩

def payment (value : Int64) : Transaction := ⟨ascii "t1", alice, bob, value, 0⟩

/-- Between two payments one without a sender is refused. -/
def payments : List Transaction :=
  [payment 4, ⟨ascii "t2", [], bob, 2, 0⟩, ⟨ascii "t3", bob, alice, 3, 0⟩]

theorem replay_matches_iff_payments :
    Throughout (serve fun _ => false)
        (handleTransaction rootServerConf CerealJson.cerealJson rootService)
        (Coincide rootServerConf CerealJson.cerealJson rootService fun _ => false)
        (funded alice) payments ∧
      ∀ account,
        balanceOf ((run (serve fun _ => false) (updateBalance rootServerConf
          (poolBlock rootServerConf CerealJson.cerealJson memory
            (runAll (serve fun _ => false)
              (handleTransaction rootServerConf CerealJson.cerealJson rootService) (funded alice)
              payments rootServerConf.cacheService))) (funded alice)).2
          rootServerConf.cacheService) account =
        balanceOf (runAll (serve fun _ => false)
          (handleTransaction rootServerConf CerealJson.cerealJson rootService) (funded alice)
          payments rootServerConf.cacheService) account :=
  (replay_matches_iff rootServerConf CerealJson.cerealJson rootService (fun _ => false) rfl
    CerealJson.cerealJson_lawful (by decide +kernel) memory (funded alice) payments
    (by decide +kernel) (by decide +kernel)
    ⟨by decide +kernel, by decide +kernel, by decide +kernel, trivial⟩ (by decide +kernel)).mpr
    ⟨by decide +kernel, by decide +kernel, by decide +kernel, trivial⟩

/-- A payment that is not covered returns true and is appended to the pool,
and replaying the pool then makes it. -/
theorem rejected_payment_replayed :
    Succeeds (fun _ => false) (funded alice)
      (handleTransaction rootServerConf CerealJson.cerealJson rootService (payment 50)) ∧
    (run (serve fun _ => false)
      (handleTransaction rootServerConf CerealJson.cerealJson rootService (payment 50))
      (funded alice)).1 = .ok true ∧
    ¬ Applied rootServerConf (payment 50) (trace (serve fun _ => false)
      (handleTransaction rootServerConf CerealJson.cerealJson rootService (payment 50))
      (funded alice)) ∧
    poolOf rootServerConf (runAll (serve fun _ => false)
      (handleTransaction rootServerConf CerealJson.cerealJson rootService) (funded alice)
      [payment 50] rootServerConf.cacheService) =
      [CerealJson.cerealJson.transaction.toString (payment 50)] ∧
    balanceOf (runAll (serve fun _ => false)
      (handleTransaction rootServerConf CerealJson.cerealJson rootService) (funded alice)
      [payment 50] rootServerConf.cacheService) alice = 10 ∧
    balanceOf ((run (serve fun _ => false) (updateBalance rootServerConf
      (poolBlock rootServerConf CerealJson.cerealJson memory
        (runAll (serve fun _ => false)
          (handleTransaction rootServerConf CerealJson.cerealJson rootService) (funded alice)
          [payment 50] rootServerConf.cacheService))) (funded alice)).2
      rootServerConf.cacheService) alice = -40 := by
  refine ⟨by decide +kernel, by decide +kernel, ?_, by decide +kernel, by decide +kernel,
    by decide +kernel⟩
  rw [applied_iff rootServerConf CerealJson.cerealJson rootService (fun _ => false) (payment 50)
    (funded alice) rfl (by decide +kernel) (by decide +kernel)
    ((handleTransaction_succeeds_iff rootServerConf CerealJson.cerealJson rootService
      (fun _ => false) (payment 50) (funded alice) rfl (by decide +kernel) (by decide +kernel)).mp
      (by decide +kernel))]
  decide +kernel

end FPayNode.LedgerReplay
