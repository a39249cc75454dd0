import FPayNode.BalanceReplay

/-!
What one replay of the chain leaves. `updateBalance` nets a block's transactions
by account and adds each net to the cache; over the chain this comes to the plain
sum over all transactions, whatever the order and the grouping.
-/

namespace FPayNode.BalanceSums

open CommandProgram DecimalText RedisServer RedisCache Messages NodeService
open RootTransaction CerealJson BlockRounds LedgerReplay NodeStartup

/-! Sums over transactions, exact and in 64 bits. -/

def received (account : Bytes) (txs : List Transaction) : Int :=
  ((txs.filter fun tx => tx._to = account).map fun tx => tx._value.toInt).sum

def spent (account : Bytes) (txs : List Transaction) : Int :=
  ((txs.filter fun tx => tx._from = account).map fun tx => tx._value.toInt).sum

def net (account : Bytes) (txs : List Transaction) : Int := received account txs - spent account txs

@[simp] theorem net_nil (account : Bytes) : net account [] = 0 := rfl

theorem net_append (account : Bytes) (first second : List Transaction) :
    net account (first ++ second) = net account first + net account second := by
  simp only [net, received, spent, List.filter_append, List.map_append, List.sum_append]
  omega

theorem net_perm (account : Bytes) {txs others : List Transaction} (same : txs.Perm others) :
    net account txs = net account others := by
  simp only [net, received, spent]
  rw [((same.filter _).map _).sum_eq, ((same.filter _).map _).sum_eq]

theorem ofInt_net (account : Bytes) (txs : List Transaction) :
    Int64.ofInt (net account txs) = movedAll txs account := by
  induction txs with
  | nil => rfl
  | cons tx rest ih =>
      have one : Int64.ofInt (net account [tx]) = moved tx account := by
        have sender : (tx._from = account) = (account = tx._from) := propext eq_comm
        have receiver : (tx._to = account) = (account = tx._to) := propext eq_comm
        simp only [net, received, spent, moved, List.filter_cons, List.filter_nil, sender, receiver,
          decide_eq_true_eq]
        split_ifs <;> simp [Int64.add_left_neg]
      rw [show tx :: rest = [tx] ++ rest from rfl, net_append, Int64.ofInt_add, one, ih]
      rfl

theorem movedAll_toInt (account : Bytes) (txs : List Transaction) (fits : Fits (net account txs)) :
    (movedAll txs account).toInt = net account txs := by
  rw [← ofInt_net, toInt_ofInt _ fits]

/-- A balance is known when it is known in 64 bits and fits. -/
theorem eq_of_ofInt {a b : Int} (first : Fits a) (second : Fits b)
    (same : Int64.ofInt a = Int64.ofInt b) : a = b := by
  rw [← toInt_ofInt a first, same, toInt_ofInt b second]

/-! The map of one block has each account once. -/

theorem lt_of_not_lt_of_ne {a b : Bytes} (notBelow : ¬ a < b) (different : a ≠ b) : b < a := by
  by_contra notAbove
  exact different (List.le_antisymm (List.not_lt.mp notAbove) (List.not_lt.mp notBelow))

def Ordered (map : List (Bytes × Int64)) : Prop := map.Pairwise fun a b => a.1 < b.1

theorem increase_ordered (key : Bytes) (increment : Int64) (map : List (Bytes × Int64))
    (ordered : Ordered map) : Ordered (increase key increment map) := by
  induction map with
  | nil => exact List.pairwise_singleton _ _
  | cons pair rest ih =>
      obtain ⟨other, sum⟩ := pair
      obtain ⟨below, tail⟩ := List.pairwise_cons.mp ordered
      simp only [increase]
      split
      · exact List.pairwise_cons.mpr ⟨below, tail⟩
      · next different =>
          split
          · next before =>
              refine List.pairwise_cons.mpr ⟨fun entry member => ?_, ordered⟩
              rcases List.mem_cons.mp member with rfl | later
              · exact before
              · exact List.lt_trans before (below entry later)
          · next notBefore =>
              refine List.pairwise_cons.mpr ⟨fun entry member => ?_, ih tail⟩
              rcases increase_keys key increment rest entry member with same | ⟨old, inside, same⟩
              · rw [same]
                exact lt_of_not_lt_of_ne notBefore different
              · rw [same]
                exact below old inside

theorem balanceMap_ordered (txs : List Transaction) : Ordered (balanceMap txs) := by
  -- The induction is over the transactions, from any ordered map.
  suffices fold : ∀ map : List (Bytes × Int64), Ordered map →
      Ordered (txs.foldl (fun map tx =>
        increase tx._to tx._value (increase tx._from (-tx._value) map)) map) from
    fold [] List.Pairwise.nil
  induction txs with
  | nil => exact fun _ ordered => ordered
  | cons tx txs ih =>
      exact fun map ordered => ih _ (increase_ordered _ _ _ (increase_ordered _ _ _ ordered))

theorem sumAt_absent (account : Bytes) (map : List (Bytes × Int64))
    (absent : ∀ pair ∈ map, pair.1 ≠ account) : sumAt account map = 0 := by
  induction map with
  | nil => rfl
  | cons pair rest ih =>
      have tail := ih fun other member => absent other (List.mem_cons_of_mem _ member)
      simp only [sumAt, List.map_cons, List.sum_cons, absent pair List.mem_cons_self,
        ↓reduceIte] at tail ⊢
      rw [tail, Int64.zero_add]

theorem sumAt_of_mem (map : List (Bytes × Int64)) (ordered : Ordered map)
    (pair : Bytes × Int64) (member : pair ∈ map) : sumAt pair.1 map = pair.2 := by
  induction map with
  | nil => cases member
  | cons entry rest ih =>
      obtain ⟨below, tail⟩ := List.pairwise_cons.mp ordered
      rcases List.mem_cons.mp member with rfl | later
      · have alone := sumAt_absent pair.1 rest fun later inside same =>
          List.lt_irrefl _ (same ▸ below later inside)
        simp only [sumAt, List.map_cons, List.sum_cons, ↓reduceIte] at alone ⊢
        rw [alone, Int64.add_zero]
      · have different : entry.1 ≠ pair.1 := fun same =>
          List.lt_irrefl _ (same ▸ below pair later)
        have found := ih tail later
        simp only [sumAt, List.map_cons, List.sum_cons, different, ↓reduceIte] at found ⊢
        rw [found, Int64.zero_add]

/-- Each entry is what the transactions move at its account. -/
theorem balanceMap_entry (txs : List Transaction) (pair : Bytes × Int64)
    (member : pair ∈ balanceMap txs) : pair.2 = movedAll txs pair.1 := by
  rw [← sumAt_balanceMap, sumAt_of_mem _ (balanceMap_ordered txs) pair member]

/-! The commands of `updateBalance` on the cache. -/

/-- The client refuses the empty key itself. -/
def incrementOne (db : Db) (pair : Bytes × Int64) : Db :=
  if pair.1 = [] then db else afterIncr db pair.1 pair.2

def incrementAll (db : Db) (map : List (Bytes × Int64)) : Db := map.foldl incrementOne db

/-- No `INCRBY` is refused. -/
def Accepts : Db → List (Bytes × Int64) → Prop
  | _, [] => True
  | db, pair :: rest =>
      (pair.1 ≠ [] → (incremented db pair.1 pair.2).isSome) ∧ Accepts (incrementOne db pair) rest

theorem run_applyAll (config : Config) (throws : Bytes → Bool) (map : List (Bytes × Int64))
    (servers : Servers) :
    run (serve throws) (applyAll config map) servers =
      ((), Function.update servers config.cacheService
        (incrementAll (servers config.cacheService) map)) := by
  induction map generalizing servers with
  | nil => simp [applyAll, incrementAll]
  | cons pair rest ih =>
      simp only [applyAll, incrBy_form, incrementAll, List.foldl_cons, incrementOne]
      by_cases unnamed : pair.1 = []
      · simp only [unnamed, ↓reduceIte, Program.finish_bind, ih]
        rfl
      · simp only [unnamed, ↓reduceIte, Program.issue_bind, Program.finish_bind, run_issue, serve,
          ih, Function.update_self, Function.update_idem]
        rfl

theorem incrementOne_other (db : Db) (pair : Bytes × Int64) (key : Bytes)
    (other : key ≠ pair.1) : (incrementOne db pair).lookup key = db.lookup key := by
  simp only [incrementOne]
  split
  · rfl
  · exact afterIncr_lookup_other db pair.1 key pair.2 other

theorem incrementOne_balance (db : Db) (pair : Bytes × Int64) (account : Bytes)
    (named : account ≠ []) (accepted : pair.1 ≠ [] → (incremented db pair.1 pair.2).isSome) :
    Int64.ofInt (balanceOf (incrementOne db pair) account) =
      Int64.ofInt (balanceOf db account) + if pair.1 = account then pair.2 else 0 := by
  by_cases same : pair.1 = account
  · subst account
    have change := afterIncr_reading db pair.1 pair.1 pair.2
    simp only [accepted named, and_self, ↓reduceIte] at change
    simp [incrementOne, named, balanceOf, change, Int64.ofInt_add]
  · simp only [balanceOf, incrementOne_other db pair account (Ne.symm same), same, ↓reduceIte,
      Int64.add_zero]

/-- A record that is a number, or absent, stays so. -/
theorem incrementOne_counter (db : Db) (pair : Bytes × Int64) (key : Bytes)
    (number : (counter (db.lookup key)).isSome) :
    (counter ((incrementOne db pair).lookup key)).isSome := by
  by_cases other : key = pair.1
  · subst key
    simp only [incrementOne]
    split
    · exact number
    · cases result : incremented db pair.1 pair.2 with
      | none => rwa [afterIncr_refused db pair.1 pair.2 result]
      | some n =>
          rw [afterIncr_accepted db pair.1 pair.2 n result, Finmap.lookup_insert]
          have fits := (incremented_some db pair.1 pair.2 n result).2
          simp [counter, parseExact_decimal n fits]
  · rwa [incrementOne_other db pair key other]

theorem incrementAll_balance (map : List (Bytes × Int64)) (db : Db) (account : Bytes)
    (named : account ≠ []) (accepts : Accepts db map) :
    Int64.ofInt (balanceOf (incrementAll db map) account) =
      Int64.ofInt (balanceOf db account) + sumAt account map := by
  induction map generalizing db with
  | nil => simp [incrementAll, sumAt]
  | cons pair rest ih =>
      have head := incrementOne_balance db pair account named accepts.1
      have tail := ih (incrementOne db pair) accepts.2
      simp only [incrementAll, List.foldl_cons] at tail ⊢
      rw [tail, head, Int64.add_assoc]
      rfl

theorem incrementAll_counter (map : List (Bytes × Int64)) (db : Db) (key : Bytes)
    (number : (counter (db.lookup key)).isSome) :
    (counter ((incrementAll db map).lookup key)).isSome := by
  induction map generalizing db with
  | nil => exact number
  | cons pair rest ih => exact ih _ (incrementOne_counter db pair key number)

/-- The text of a block is no number, so no `INCRBY` is accepted at its key. -/
theorem incrementAll_text (map : List (Bytes × Int64)) (db : Db) (key text : Bytes)
    (accepts : Accepts db map) (named : key ≠ []) (found : db.lookup key = some (.string text))
    (words : parseExact text = none) :
    (incrementAll db map).lookup key = some (.string text) := by
  induction map generalizing db with
  | nil => exact found
  | cons pair rest ih =>
      refine ih _ accepts.2 ?_
      rw [incrementOne_other db pair key, found]
      rintro rfl
      have accepted := accepts.1 named
      simp [incremented, counter, found, words] at accepted

/-- On distinct accounts the increments do not get in each other's way. -/
theorem accepts_of_ordered (map : List (Bytes × Int64)) (db : Db) (ordered : Ordered map)
    (accepted : ∀ pair ∈ map, pair.1 ≠ [] → (incremented db pair.1 pair.2).isSome) :
    Accepts db map := by
  induction map generalizing db with
  | nil => trivial
  | cons pair rest ih =>
      obtain ⟨below, tail⟩ := List.pairwise_cons.mp ordered
      refine ⟨accepted pair List.mem_cons_self, ih _ tail fun other member named => ?_⟩
      have first := accepted other (List.mem_cons_of_mem _ member) named
      have different : other.1 ≠ pair.1 := fun same =>
        List.lt_irrefl _ (same ▸ below other member)
      rw [incremented_isSome_iff] at first ⊢
      rwa [incrementOne_other db pair other.1 different]

/-! The chain. -/

def txsOf (blocks : List Block) : List Transaction := blocks.flatMap fun block => block._txList

section Chain
variable (config : Config) (cereal : Cereal)

/-- A text under the key loads as the block, whatever it is read into. -/
def StoredAt (servers : Servers) (key : Bytes) (block : Block) : Prop :=
  key ≠ [] ∧ ∃ text, (servers config.dbService).lookup key = some (.string text) ∧
    ∀ memory, cereal.block.fromString text (Block.fresh memory) = (true, block)

/-- The links from a key lead through these blocks, all of them stored, to an
empty link. -/
def StoredChain (servers : Servers) : Bytes → List Block → Prop
  | blockId, [] => blockId = []
  | blockId, block :: rest =>
      StoredAt config cereal servers blockId block ∧ StoredChain servers block._next rest

/-- The chain, and a cache in which every account met holds a number, every
block's net fits, and every balance fits after every block. -/
structure Replayable (servers : Servers) (blockId : Bytes) (blocks : List Block) : Prop where
  chain : StoredChain config cereal servers blockId blocks
  numbers : ∀ account, account ≠ [] →
    (∃ tx ∈ txsOf blocks, account = tx._from ∨ account = tx._to) →
    (counter ((servers config.cacheService).lookup account)).isSome
  nets : ∀ block ∈ blocks, ∀ account, account ≠ [] → Fits (net account block._txList)
  balances : ∀ earlier, earlier <+: blocks → ∀ account, account ≠ [] →
    Fits (balanceOf (servers config.cacheService) account + net account (txsOf earlier))

theorem txsOf_cons (block : Block) (rest : List Block) :
    txsOf (block :: rest) = block._txList ++ txsOf rest := rfl

/-- The accounts of a block's map are those of its transactions. -/
theorem balanceMap_accounts (txs : List Transaction) (pair : Bytes × Int64)
    (member : pair ∈ balanceMap txs) : ∃ tx ∈ txs, pair.1 = tx._from ∨ pair.1 = tx._to := by
  -- The induction is over the transactions, from any map.
  suffices fold : ∀ map : List (Bytes × Int64), pair ∈ txs.foldl (fun map tx =>
      increase tx._to tx._value (increase tx._from (-tx._value) map)) map →
      (∃ tx ∈ txs, pair.1 = tx._from ∨ pair.1 = tx._to) ∨ ∃ old ∈ map, pair.1 = old.1 by
    exact (fold [] member).resolve_right (by simp)
  clear member
  induction txs with
  | nil => exact fun map member => .inr ⟨pair, member, rfl⟩
  | cons tx txs ih =>
      intro map member
      rcases ih _ member with ⟨other, inside, meets⟩ | ⟨old, inside, same⟩
      · exact .inl ⟨other, List.mem_cons_of_mem _ inside, meets⟩
      · rcases increase_keys _ _ _ old inside with receiver | ⟨older, first, sameOld⟩
        · exact .inl ⟨tx, List.mem_cons_self, .inr (same.trans receiver)⟩
        · rcases increase_keys _ _ _ older first with sender | ⟨oldest, there, sameOldest⟩
          · exact .inl ⟨tx, List.mem_cons_self, .inl (same.trans (sameOld.trans sender))⟩
          · exact .inr ⟨oldest, there, same.trans (sameOld.trans sameOldest)⟩

/-- The services after one block. -/
def replayed (servers : Servers) (block : Block) : Servers :=
  Function.update servers config.cacheService
    (incrementAll (servers config.cacheService) (balanceMap block._txList))

variable (servers : Servers) (blockId : Bytes) (block : Block) (rest : List Block)
variable (replayable : Replayable config cereal servers blockId (block :: rest))
include replayable

theorem replayable_accepts :
    Accepts (servers config.cacheService) (balanceMap block._txList) := by
  refine accepts_of_ordered _ _ (balanceMap_ordered _) fun pair member named => ?_
  obtain ⟨tx, inside, meets⟩ := balanceMap_accounts block._txList pair member
  rw [incremented_isSome_iff]
  constructor
  · exact replayable.numbers pair.1 named ⟨tx, List.mem_append_left _ inside, meets⟩
  · rw [balanceMap_entry _ pair member,
      movedAll_toInt _ _ (replayable.nets block List.mem_cons_self pair.1 named)]
    have fits := replayable.balances [block] ⟨rest, rfl⟩ pair.1 named
    rwa [txsOf_cons, show txsOf [] = [] from rfl, List.append_nil] at fits

theorem replayed_balance (account : Bytes) (named : account ≠ []) :
    balanceOf (replayed config servers block config.cacheService) account =
      balanceOf (servers config.cacheService) account + net account block._txList := by
  apply eq_of_ofInt (balanceOf_fits _ _)
  · have fits := replayable.balances [block] ⟨rest, rfl⟩ account named
    rwa [txsOf_cons, show txsOf [] = [] from rfl, List.append_nil] at fits
  · rw [replayed, Function.update_self, incrementAll_balance _ _ account named
      (replayable_accepts config cereal servers blockId block rest replayable),
      sumAt_balanceMap, Int64.ofInt_add, ofInt_net]

theorem replayed_chain (lawful : cereal.Lawful) (key : Bytes) (blocks : List Block)
    (chain : StoredChain config cereal servers key blocks) :
    StoredChain config cereal (replayed config servers block) key blocks := by
  have accepts := replayable_accepts config cereal servers blockId block rest replayable
  induction blocks generalizing key with
  | nil => exact chain
  | cons first others ih =>
      obtain ⟨⟨named, text, found, loads⟩, links⟩ := chain
      refine ⟨⟨named, text, ?_, loads⟩, ih _ links⟩
      have words := lawful.block.object text (Block.fresh ⟨0, 0⟩) (by rw [loads])
      by_cases shared : config.dbService = config.cacheService
      · rw [shared] at found ⊢
        rw [replayed, Function.update_self]
        exact incrementAll_text _ _ key text accepts named found words
      · rwa [replayed, Function.update_of_ne shared]

/-- One block is replayed, and the rest of the chain is still to be. -/
theorem replayed_replayable (lawful : cereal.Lawful) :
    Replayable config cereal (replayed config servers block) block._next rest where
  chain := replayed_chain config cereal servers blockId block rest replayable lawful _ _
    replayable.chain.2
  numbers := by
    rintro account named ⟨tx, inside, meets⟩
    rw [replayed, Function.update_self]
    exact incrementAll_counter _ _ account
      (replayable.numbers account named ⟨tx, List.mem_append_right _ inside, meets⟩)
  nets := fun other member => replayable.nets other (List.mem_cons_of_mem _ member)
  balances := by
    rintro earlier ⟨later, rfl⟩ account named
    rw [replayed_balance config cereal servers blockId block _ replayable account named]
    have fits := replayable.balances (block :: earlier) ⟨later, rfl⟩ account named
    rwa [txsOf_cons, net_append, ← Int.add_assoc] at fits

end Chain

section Run
variable (config : Config) (cereal : Cereal) (throws : Bytes → Bool)
variable (memory : Nat → Uninitialized)

/-- With enough reads the whole chain is gone through. -/
theorem run_initBalance (lawful : cereal.Lawful) (blocks : List Block) (servers : Servers)
    (blockId : Bytes) (replayable : Replayable config cereal servers blockId blocks)
    (reads : Nat) (enough : blocks.length < reads) :
    (run (serve throws) (initBalance config cereal memory reads blockId) servers).1 = some true ∧
      ∀ account, account ≠ [] →
        balanceOf ((run (serve throws) (initBalance config cereal memory reads blockId)
            servers).2 config.cacheService) account =
          balanceOf (servers config.cacheService) account + net account (txsOf blocks) := by
  induction blocks generalizing servers blockId reads with
  | nil =>
      obtain ⟨more, rfl⟩ := Nat.exists_eq_add_of_lt enough
      have ended : blockId = [] := replayable.chain
      simp [initBalance, ended, txsOf]
  | cons block rest ih =>
      obtain ⟨more, rfl⟩ : ∃ more, reads = more + 1 := Nat.exists_eq_succ_of_ne_zero (by omega)
      obtain ⟨⟨named, text, found, loads⟩, -⟩ := replayable.chain
      have read : run (serve throws)
          (getBlock config cereal blockId (Block.fresh (memory more))) servers =
          ((true, block), servers) := by
        simp only [run_getBlock, storedText, named, ↓reduceIte, found, loads]
      have later := replayed_replayable config cereal servers blockId block rest replayable lawful
      obtain ⟨result, balances⟩ := ih _ _ later more
        (by rw [List.length_cons] at enough; omega)
      have step : run (serve throws) (initBalance config cereal memory (more + 1) blockId) servers =
          run (serve throws) (initBalance config cereal memory more block._next)
            (replayed config servers block) := by
        simp only [initBalance, List.isEmpty_iff, named, ↓reduceIte, run_bind, read, Bool.not_true,
          Bool.false_eq_true, updateBalance, run_applyAll]
        rfl
      rw [step]
      refine ⟨result, fun account other => ?_⟩
      rw [balances account other,
        replayed_balance config cereal servers blockId block rest replayable account other,
        txsOf_cons, net_append, Int.add_assoc]

/-! Each transaction by itself, and other orders and groupings. -/

/-- What one transaction after another would add, without netting. -/
def postings (txs : List Transaction) : List (Bytes × Int64) :=
  txs.flatMap fun tx => [(tx._from, -tx._value), (tx._to, tx._value)]

theorem sumAt_postings (account : Bytes) (txs : List Transaction) :
    sumAt account (postings txs) = movedAll txs account := by
  induction txs with
  | nil => rfl
  | cons tx rest ih =>
      have one : sumAt account [(tx._from, -tx._value), (tx._to, tx._value)] =
          moved tx account := by
        simp [sumAt, moved, eq_comm]
      rw [postings, List.flatMap_cons, BalanceReplay.sumAt_append, one]
      exact congrArg _ ih

/-- The balances after a replay are the old ones and the sums over the
transactions: as if each had been applied by itself, and the same for every
chain with the same transactions. -/
theorem initBalance_adds_up (lawful : cereal.Lawful) (servers : Servers) (blocks : List Block)
    (replayable : Replayable config cereal servers config.initBlockId blocks)
    (reads : Nat) (enough : blocks.length < reads) :
    let replay := run (serve throws) (initBalance config cereal memory reads config.initBlockId)
    (replay servers).1 = some true ∧
    (∀ account, account ≠ [] →
      balanceOf ((replay servers).2 config.cacheService) account =
        balanceOf (servers config.cacheService) account + received account (txsOf blocks) -
          spent account (txsOf blocks)) ∧
    (Accepts (servers config.cacheService) (postings (txsOf blocks)) →
      ∀ account, account ≠ [] →
        balanceOf ((run (serve throws) (applyAll config (postings (txsOf blocks))) servers).2
            config.cacheService) account =
          balanceOf ((replay servers).2 config.cacheService) account) ∧
    ∀ (others : Servers) (otherBlocks : List Block),
      Replayable config cereal others config.initBlockId otherBlocks →
      otherBlocks.length < reads →
      (∀ account, account ≠ [] → balanceOf (others config.cacheService) account =
        balanceOf (servers config.cacheService) account) →
      (txsOf otherBlocks).Perm (txsOf blocks) →
      (replay others).1 = some true ∧
        ∀ account, account ≠ [] → balanceOf ((replay others).2 config.cacheService) account =
          balanceOf ((replay servers).2 config.cacheService) account := by
  intro replay
  obtain ⟨result, balances⟩ := run_initBalance config cereal throws memory lawful blocks servers
    config.initBlockId replayable reads enough
  refine ⟨result, fun account named => ?_, fun accepts account named => ?_, ?_⟩
  · rw [balances account named, net, Int.add_sub_assoc]
  · -- Both fit, so it is enough that they agree in 64 bits.
    apply eq_of_ofInt (balanceOf_fits _ _) (balanceOf_fits _ _)
    simp only [run_applyAll, Function.update_self]
    rw [incrementAll_balance _ _ account named accepts, sumAt_postings, balances account named,
      Int64.ofInt_add, ofInt_net]
  · intro others otherBlocks otherReplayable otherEnough sameStart samePayments
    obtain ⟨otherResult, otherBalances⟩ := run_initBalance config cereal throws memory lawful
      otherBlocks others config.initBlockId otherReplayable reads otherEnough
    refine ⟨otherResult, fun account named => ?_⟩
    rw [otherBalances account named, balances account named, sameStart account named,
      net_perm account samePayments]

end Run

/-! A chain is checked at the accounts that it names. -/

def parties (txs : List Transaction) : List Bytes := txs.flatMap fun tx => [tx._from, tx._to]

theorem net_apart (account : Bytes) (txs : List Transaction) (apart : account ∉ parties txs) :
    net account txs = 0 := by
  have none : ∀ tx ∈ txs, ¬ tx._from = account ∧ ¬ tx._to = account := by
    intro tx inside
    constructor
    · rintro rfl
      exact apart (List.mem_flatMap.mpr ⟨tx, inside, by simp⟩)
    · rintro rfl
      exact apart (List.mem_flatMap.mpr ⟨tx, inside, by simp⟩)
  have sends : (txs.filter fun tx => tx._from = account) = [] :=
    List.filter_eq_nil_iff.mpr fun tx inside => by simpa using (none tx inside).1
  have receives : (txs.filter fun tx => tx._to = account) = [] :=
    List.filter_eq_nil_iff.mpr fun tx inside => by simpa using (none tx inside).2
  rw [net, received, spent, sends, receives]
  rfl

theorem replayable_of_parties (config : Config) (cereal : Cereal) (servers : Servers)
    (blockId : Bytes) (blocks : List Block)
    (chain : StoredChain config cereal servers blockId blocks)
    (numbers : ∀ account ∈ parties (txsOf blocks), account ≠ [] →
      (counter ((servers config.cacheService).lookup account)).isSome)
    (nets : ∀ block ∈ blocks, ∀ account ∈ parties block._txList,
      account ≠ [] → Fits (net account block._txList))
    (balances : ∀ earlier ∈ blocks.inits, ∀ account ∈ parties (txsOf earlier), account ≠ [] →
      Fits (balanceOf (servers config.cacheService) account + net account (txsOf earlier))) :
    Replayable config cereal servers blockId blocks where
  chain := chain
  numbers := by
    rintro account named ⟨tx, inside, meets⟩
    exact numbers account (List.mem_flatMap.mpr ⟨tx, inside, by simpa using meets⟩) named
  nets := by
    intro block member account named
    by_cases party : account ∈ parties block._txList
    · exact nets block member account party named
    · rw [net_apart account _ party]
      decide
  balances := by
    intro earlier front account named
    by_cases party : account ∈ parties (txsOf earlier)
    · exact balances earlier ((List.mem_inits _ _).mpr front) account party named
    · rw [net_apart account _ party, Int.add_zero]
      exact balanceOf_fits _ _

/-- A root with a short first id, and a cache that is a server of its own. -/
def apartConf : Config :=
  { rootServerConf with
    initBlockId := ascii "b0"
    cacheService := ascii "127.0.0.1:16380" }

def minted : Transaction := ⟨ascii "t0", [], alice, 400, 0⟩

def toBob : Transaction := ⟨ascii "t1", alice, bob, 150, 0⟩

def toAlice : Transaction := ⟨ascii "t2", bob, alice, 30, 0⟩

/-- A block that mints, with some payments behind it, and one block more. -/
def twoBlocks (first second : List Transaction) : List Block :=
  [⟨ascii "b0", [], ascii "b1", 0, minted :: first⟩, ⟨ascii "b1", ascii "b0", [], 0, second⟩]

/-- The blocks are stored, and Bob has something. -/
def storing (blocks : List Block) (service : Bytes) : Db :=
  if service = apartConf.cacheService then (∅ : Db).insert bob (.string (ascii "20"))
  else
    blocks.foldl (fun db block => db.insert block._id (.string (cerealJson.block.toString block))) ∅

theorem storing_cache (blocks : List Block) :
    storing blocks apartConf.cacheService = (∅ : Db).insert bob (.string (ascii "20")) := if_pos rfl

theorem twoBlocks_stored (first second : List Transaction)
    (clean : ∀ block ∈ twoBlocks first second, block.Clean) :
    StoredChain apartConf cerealJson (storing (twoBlocks first second)) apartConf.initBlockId
      (twoBlocks first second) := by
  have named : ascii "b1" ≠ [] := by decide
  have apart : ascii "b0" ≠ ascii "b1" := by decide
  refine ⟨⟨by decide, _, (Finmap.lookup_insert_of_ne _ apart).trans
    (Finmap.lookup_insert _), fun _ => ?_⟩, ⟨named, _, Finmap.lookup_insert _, fun _ => ?_⟩, rfl⟩
  · exact cerealJson_lawful.block.round _ _ (clean _ List.mem_cons_self)
  · exact cerealJson_lawful.block.round _ _ (clean _ (by simp [twoBlocks]))

/-- Both payments in one block, or one in each and the other way round. -/
theorem twoBlocks_replayable :
    Replayable apartConf cerealJson (storing (twoBlocks [toAlice, toBob] []))
        apartConf.initBlockId (twoBlocks [toAlice, toBob] []) ∧
      Replayable apartConf cerealJson (storing (twoBlocks [toBob] [toAlice]))
        apartConf.initBlockId (twoBlocks [toBob] [toAlice]) := by
  constructor
  · exact replayable_of_parties _ _ _ _ _ (twoBlocks_stored _ _ (by decide +kernel))
      (by decide +kernel) (by decide +kernel) (by decide +kernel)
  · exact replayable_of_parties _ _ _ _ _ (twoBlocks_stored _ _ (by decide +kernel))
      (by decide +kernel) (by decide +kernel) (by decide +kernel)

/-- The replay of the blocks. -/
def replayOf (blocks : List Block) : Option Bool × Servers :=
  run (serve fun _ => false) (initBalance apartConf cerealJson (fun _ => ⟨0, 0⟩) 3
    apartConf.initBlockId) (storing blocks)

theorem initBalance_adds_up_twoGroupings :
    let blocks := twoBlocks [toAlice, toBob] []
    let others := twoBlocks [toBob] [toAlice]
    (replayOf blocks).1 = some true ∧
    (∀ account, account ≠ [] →
      balanceOf ((replayOf blocks).2 apartConf.cacheService) account =
        balanceOf (storing blocks apartConf.cacheService) account +
          received account (txsOf blocks) - spent account (txsOf blocks)) ∧
    (∀ account, account ≠ [] →
      balanceOf ((run (serve fun _ => false)
          (applyAll apartConf (postings (txsOf blocks))) (storing blocks)).2
          apartConf.cacheService) account =
        balanceOf ((replayOf blocks).2 apartConf.cacheService) account) ∧
    (replayOf others).1 = some true ∧
    ∀ account, account ≠ [] →
      balanceOf ((replayOf others).2 apartConf.cacheService) account =
        balanceOf ((replayOf blocks).2 apartConf.cacheService) account := by
  have whole := initBalance_adds_up apartConf cerealJson (fun _ => false)
    (fun _ => ⟨0, 0⟩) cerealJson_lawful (storing (twoBlocks [toAlice, toBob] []))
    (twoBlocks [toAlice, toBob] []) twoBlocks_replayable.1 3 (by decide)
  have accepted : Accepts (storing (twoBlocks [toAlice, toBob] []) apartConf.cacheService)
      (postings (txsOf (twoBlocks [toAlice, toBob] []))) := by
    refine ⟨?_, ?_, ?_, ?_, ?_, ?_, trivial⟩
    all_goals decide +kernel
  have regrouped := whole.2.2.2 (storing (twoBlocks [toBob] [toAlice]))
    (twoBlocks [toBob] [toAlice]) twoBlocks_replayable.2 (by decide)
    (fun account _ => by rw [storing_cache, storing_cache]) ((List.Perm.swap _ _ []).cons _)
  simp only [replayOf]
  exact ⟨whole.1, whole.2.1, whole.2.2.1 accepted, regrouped⟩

end FPayNode.BalanceSums
