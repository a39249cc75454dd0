import FPayNode.BlockChain
import FPayNode.LedgerReplay
import FPayNode.ReplayStages

/-!
Whether the blocks are replayed into the balances once. Workers start up side by
side, and one that crashes is one that is not scheduled again. The first to set
the locker replays the chain; the others find it set and go on, whether the
replay has ended or not.
-/

namespace FPayNode.BalanceReplay

open CommandProgram WorkerPool DecimalText RedisServer RedisCache Messages NodeService
open RootTransaction CerealJson BlockChain LedgerReplay NodeStartup ReplayStages

/-! What the commands do to the chain, the locker and the balances. -/

section Commands
variable (config : Config) (cereal : Cereal)

/-- The block service holds a text under the key that loads as the block, and
not where the lock of the chain is. -/
structure Stored (servers : Servers) (key : Bytes) (block : Block) : Prop where
  named : key ≠ []
  apart : config.dbService = config.cacheService → key ≠ config.BCLock
  loads : ∃ text, (servers config.dbService).lookup key = some (.string text) ∧
    ∀ memory, cereal.block.fromString text (Block.fresh memory) = (true, block)

/-- The blocks met by `_next` from a key are these, and all of them are stored. -/
def Chain (servers : Servers) : Bytes → List Block → Prop
  | blockId, [] => blockId = []
  | blockId, block :: rest => Stored config cereal servers blockId block ∧
      Chain servers block._next rest

theorem chain_nil (servers : Servers) (rest : List Block)
    (chain : Chain config cereal servers [] rest) : rest = [] := by
  cases rest with
  | nil => rfl
  | cons block rest => exact absurd rfl chain.1.named

/-- The account and the sum of an `INCRBY` on the cache that was carried out. -/
def incrementOf : Effect → Answer → Option (Bytes × Int64)
  | .redis service (.incrBy key increment), answer =>
      if service = config.cacheService ∧ integerAnswer answer then some (key, increment) else none
  | _, _ => none

/-- An `INCRBY` is not refused. -/
def accepted (shared : Servers) : Effect → Bool
  | .redis service (.incrBy key increment) =>
      (incremented (shared service) key increment).isSome
  | _ => true

def triesLocker : Effect → Bool
  | .redis service (.set key _ _ .nx) => service = config.cacheService ∧ key = initBalanceLocker
  | _ => false

/-- Every command of `init`. -/
theorem allowed_command (stage : ReplayStage) (command : Effect)
    (allowed : ReplayAllowed config stage command) :
    Aside config command ∨
      (∃ id, command = .redis config.cacheService (.set initBalanceLocker id 0 .nx)) ∨
      ∃ key increment, command = .redis config.cacheService (.incrBy key increment) := by
  cases stage with
  | before boot => exact allowed.imp_right .inl
  | replaying boot reads pending blockId =>
      cases pending with
      | nil =>
          obtain ⟨-, -, rfl⟩ := allowed
          exact .inl (.inl ⟨_, _, rfl⟩)
      | cons pair rest =>
          have one : command = .redis config.cacheService (.incrBy pair.1 pair.2) := allowed
          exact .inr (.inr ⟨_, _, one⟩)
  | after => exact .inl allowed

variable (throws : Bytes → Bool) (shared : Servers)

/-- A command beside the replay changes at most the lock of the chain. -/
theorem aside_other (command : Effect) (aside : Aside config command) (service key : Bytes)
    (apart : service = config.cacheService → key ≠ config.BCLock) :
    ((serve throws command shared).2 service).lookup key = (shared service).lookup key := by
  rcases aside with ⟨_, _, rfl⟩ | ⟨id, rfl⟩ | rfl | ⟨_, _, _, rfl⟩
  · exact serve_lookup_other throws shared _ _ _ _ fun db => by rw [exec_get_db]
  · exact serve_lookup_apart throws shared _ _ _ _ fun same db =>
      exec_set_other db _ _ _ _ _ (apart same)
  · exact serve_lookup_apart throws shared _ _ _ _ fun same db => exec_del_other db _ _ (apart same)
  · rfl

theorem aside_increment (command : Effect) (answer : Answer) (aside : Aside config command) :
    incrementOf config command answer = none := by
  rcases aside with ⟨_, _, rfl⟩ | ⟨_, rfl⟩ | rfl | ⟨_, _, _, rfl⟩ <;> rfl

theorem incrBy_increment (key : Bytes) (increment : Int64)
    (added : (incremented (shared config.cacheService) key increment).isSome) :
    incrementOf config (.redis config.cacheService (.incrBy key increment))
      (serve throws (.redis config.cacheService (.incrBy key increment)) shared).1 =
      some (key, increment) := by
  obtain ⟨n, value⟩ := Option.isSome_iff_exists.mp added
  simp [incrementOf, serve, exec_incrBy, value, integerAnswer]

variable (stage : ReplayStage) (command : Effect)

/-- A text that is no number stays as it is. -/
theorem text_kept (allowed : ReplayAllowed config stage command)
    (carried : accepted shared command = true) (service key text : Bytes)
    (apart : service = config.cacheService → key ≠ config.BCLock)
    (found : (shared service).lookup key = some (.string text))
    (words : parseExact text = none) :
    ((serve throws command shared).2 service).lookup key = some (.string text) := by
  rcases allowed_command config stage command allowed with aside | ⟨id, rfl⟩ | ⟨name, increment, rfl⟩
  · rw [aside_other config throws shared command aside service key apart, found]
  · by_cases locker : service = config.cacheService ∧ key = initBalanceLocker
    · obtain ⟨rfl, rfl⟩ := locker
      rw [serve_setNX, if_neg (by simp [found])]
      exact found
    · rw [serve_lookup_apart throws shared _ _ _ _ fun same db =>
        exec_set_other db _ _ _ _ _ fun there => locker ⟨same, there⟩, found]
  · rw [← found]
    apply serve_lookup_apart
    intro same db
    apply afterIncr_lookup_other
    rintro rfl
    subst same
    obtain ⟨n, value⟩ := Option.isSome_iff_exists.mp carried
    simp [incremented, found, counter, words] at value

theorem chain_kept (lawful : cereal.Lawful) (allowed : ReplayAllowed config stage command)
    (carried : accepted shared command = true) (blockId : Bytes) (blocks : List Block)
    (chain : Chain config cereal shared blockId blocks) :
    Chain config cereal (serve throws command shared).2 blockId blocks := by
  induction blocks generalizing blockId with
  | nil => exact chain
  | cons block rest ih =>
      obtain ⟨⟨named, apart, text, found, loads⟩, more⟩ := chain
      have words : parseExact text = none :=
        lawful.block.object text (Block.fresh ⟨0, 0⟩) (by rw [loads])
      exact ⟨⟨named, apart, text, text_kept config throws shared stage command allowed carried
        _ _ _ apart found words, loads⟩, ih _ more⟩

/-- Of the records that are no locks, only the account of an `INCRBY` changes,
by its sum. -/
theorem balance_step (allowed : ReplayAllowed config stage command)
    (carried : accepted shared command = true) (account : Bytes) (notLock : account ≠ config.BCLock)
    (notLocker : account ≠ initBalanceLocker) :
    Int64.ofInt (balanceOf ((serve throws command shared).2 config.cacheService) account) =
      Int64.ofInt (balanceOf (shared config.cacheService) account) +
        sumAt account (incrementOf config command (serve throws command shared).1).toList := by
  simp only [balanceOf]
  rcases allowed_command config stage command allowed with aside | ⟨id, rfl⟩ | ⟨key, increment, rfl⟩
  · rw [aside_other config throws shared command aside _ _ fun _ => notLock,
      aside_increment config command _ aside]
    simp [sumAt]
  · rw [serve_lookup_other throws shared _ _ _ _ fun db =>
      exec_set_other db _ _ _ _ _ notLocker]
    simp [incrementOf, sumAt]
  · have change := afterIncr_reading (shared config.cacheService) key account increment
    have added : (incremented (shared config.cacheService) key increment).isSome := carried
    rw [incrBy_increment config throws shared key increment added]
    simp only [serve, exec_incrBy, Function.update_self]
    rw [change]
    by_cases same : account = key
    · subst same
      simp [added, sumAt, Int64.ofInt_add, Int64.ofInt_toInt]
    · simp [same, sumAt, Ne.symm same]

end Commands

/-! What the increments of a chain come to. -/

theorem sumAt_append (account : Bytes) (first second : List (Bytes × Int64)) :
    sumAt account (first ++ second) = sumAt account first + sumAt account second := by
  simp [sumAt]

theorem sumAt_named (account : Bytes) (named : account ≠ []) (map : List (Bytes × Int64)) :
    sumAt account (map.filter fun pair => pair.1 ≠ []) = sumAt account map := by
  induction map with
  | nil => rfl
  | cons pair rest ih =>
      by_cases unnamed : pair.1 = []
      · have other : pair.1 ≠ account := by rw [unnamed]; exact Ne.symm named
        rw [List.filter_cons_of_neg (by simpa using unnamed), ih]
        simp [sumAt, other]
      · rw [List.filter_cons_of_pos (by simpa using unnamed)]
        simp only [sumAt, List.map_cons, List.sum_cons] at ih ⊢
        rw [ih]

/-- What the transactions of the blocks move. -/
theorem sumAt_blocks (account : Bytes) (named : account ≠ []) (blocks : List Block) :
    sumAt account (blocks.flatMap blockIncrements) =
      movedAll (blocks.flatMap fun block => block._txList) account := by
  induction blocks with
  | nil => rfl
  | cons block rest ih =>
      rw [List.flatMap_cons, List.flatMap_cons, sumAt_append, ih, blockIncrements,
        sumAt_named account named, sumAt_balanceMap]
      simp [movedAll]

section Runs
variable {Worker : Type} (config : Config) (cereal : Cereal)

/-- The increments that were carried out, in their order. -/
def applied (history : List (StartEvent Worker)) : List (Bytes × Int64) :=
  history.filterMap fun
    | .executed _ _ _ command answer => incrementOf config command answer
    | .returned _ _ _ => none

theorem applied_executed (history : List (StartEvent Worker)) (worker : Worker) (boot : Boot)
    (before : List (Effect × Answer)) (command : Effect) (answer : Answer) :
    applied config (history ++ [.executed worker boot before command answer]) =
      applied config history ++ (incrementOf config command answer).toList := by
  cases found : incrementOf config command answer <;> simp [applied, found]

theorem applied_returned (history : List (StartEvent Worker)) (worker : Worker) (boot : Boot)
    (result : Started) :
    applied config (history ++ [.returned worker boot result]) = applied config history := by
  simp [applied]

def returnsTrue : StartEvent Worker → Bool
  | .returned _ _ (some (.ok true)) => true
  | _ => false

/-- Some call of `init` has returned true. -/
def reported (history : List (StartEvent Worker)) : Bool := history.any returnsTrue

theorem reported_executed (history : List (StartEvent Worker)) (worker : Worker) (boot : Boot)
    (before : List (Effect × Answer)) (command : Effect) (answer : Answer) :
    reported (history ++ [.executed worker boot before command answer]) = reported history := by
  simp [reported, returnsTrue]

theorem reported_returned (history : List (StartEvent Worker)) (worker : Worker) (boot : Boot)
    (result : Started) (other : result ≠ some (.ok true)) :
    reported (history ++ [.returned worker boot result]) = reported history := by
  have untrue : returnsTrue (.returned worker boot result) = false := by
    rcases result with _ | _ | (_ | _) <;> first | rfl | exact absurd rfl other
  simp [reported, untrue]

def inReplay : ReplayStage → Bool
  | .replaying _ _ _ _ => true
  | _ => false

/-- The call is one of those that have the replay before them. -/
def Early (stage : Option ReplayStage) : Prop :=
  ∀ found, stage = some found → ∃ boot, found = .before boot

/-- One worker walks along the chain. What is applied, what it has left of a
block and the blocks from the one it reads next make up the chain. -/
structure Walk (blocks : List Block) (shared : Servers) (phases : Worker → Option ReplayStage)
    (history : List (StartEvent Worker)) (worker : Worker) (reads : Nat)
    (pending : List (Bytes × Int64)) (blockId : Bytes) (rest : List Block) : Prop where
  whole : applied config history ++ (pending ++ rest.flatMap blockIncrements) =
    blocks.flatMap blockIncrements
  chain : Chain config cereal shared blockId rest
  rounds : rest.length < reads
  taken : (shared config.cacheService).lookup initBalanceLocker ≠ none
  others : ∀ other, other ≠ worker → Early (phases other)
  unreported : reported history = false

inductive Progress (blocks : List Block) (shared : Servers)
    (phases : Worker → Option ReplayStage) (history : List (StartEvent Worker)) : Prop where
  | untouched (free : (shared config.cacheService).lookup initBalanceLocker = none)
      (nothing : applied config history = []) (early : ∀ worker, Early (phases worker))
      (unreported : reported history = false)
  | underway (worker : Worker) (boot : Boot) (reads : Nat) (pending : List (Bytes × Int64))
      (blockId : Bytes) (rest : List Block)
      (here : phases worker = some (.replaying boot reads pending blockId))
      (walk : Walk config cereal blocks shared phases history worker reads pending blockId rest)
  | complete (taken : (shared config.cacheService).lookup initBalanceLocker ≠ none)
      (whole : applied config history = blocks.flatMap blockIncrements)
      (ended : ∀ worker stage, phases worker = some stage → inReplay stage = false)

structure Replayed (blocks : List Block) (start shared : Servers)
    (phases : Worker → Option ReplayStage) (history : List (StartEvent Worker)) : Prop where
  chain : Chain config cereal shared config.initBlockId blocks
  balances : ∀ account, account ≠ config.BCLock → account ≠ initBalanceLocker →
    Int64.ofInt (balanceOf (shared config.cacheService) account) =
      Int64.ofInt (balanceOf (start config.cacheService) account) +
        sumAt account (applied config history)
  rounds : ∀ worker boot, phases worker = some (.before boot) → blocks.length < boot.reads
  progress : Progress config cereal blocks shared phases history

variable [DecidableEq Worker]

/-- A call starts with rounds for the whole chain. Nobody tries the locker while
another worker is in the replay, and no `INCRBY` is refused. -/
def Undisturbed (blocks : List Block) (pool : Pool Worker Boot Effect Answer Started Servers) :
    Choice Worker Boot → Prop
  | .start _ boot => blocks.length < boot.reads
  | .advance worker => ∀ command ∈ nextCommand pool worker,
      accepted pool.shared command = true ∧
        (triesLocker config command = true → ∀ other, other ≠ worker →
          ((replaying config cereal).phases pool other).any inReplay = false)

instance [Fintype Worker] (blocks : List Block)
    (pool : Pool Worker Boot Effect Answer Started Servers) :
    ∀ choice, Decidable (Undisturbed config cereal blocks pool choice)
  | .start _ boot => inferInstanceAs (Decidable (blocks.length < boot.reads))
  | .advance worker => inferInstanceAs (Decidable (∀ command ∈ nextCommand pool worker, _ ∧ _))

/-- The worker goes on with what is left of the chain, or has come to its end. -/
theorem progress_next (blocks : List Block) (shared : Servers)
    (phases : Worker → Option ReplayStage) (history : List (StartEvent Worker)) (worker : Worker)
    (boot : Boot) (reads : Nat) (pending : List (Bytes × Int64)) (blockId : Bytes)
    (rest : List Block)
    (walk : Walk config cereal blocks shared phases history worker reads pending blockId rest) :
    Progress config cereal blocks shared
      (Function.update phases worker (some (replayNext boot reads pending blockId))) history := by
  have others : ∀ other, other ≠ worker → Early (Function.update phases worker
      (some (replayNext boot reads pending blockId)) other) := by
    intro other different
    rw [Function.update_of_ne different]
    exact walk.others other different
  by_cases ended : pending = [] ∧ blockId = [] ∧ 0 < reads
  · have after : replayNext boot reads pending blockId = .after := if_pos ended
    obtain ⟨rfl, rfl, -⟩ := ended
    have last := chain_nil config cereal shared rest walk.chain
    subst last
    apply Progress.complete walk.taken
    · simpa using walk.whole
    · intro other stage found
      by_cases same : other = worker
      · subst same
        rw [Function.update_self, after] at found
        cases found
        rfl
      · obtain ⟨boot, rfl⟩ := others other same stage found
        rfl
  · have here : replayNext boot reads pending blockId = .replaying boot reads pending blockId :=
      if_neg ended
    rw [here] at others ⊢
    exact Progress.underway worker boot reads pending blockId rest (Function.update_self ..)
      { walk with others := others }

omit [DecidableEq Worker] in
/-- A worker in the replay is the only one that has begun it. -/
theorem walk_of_replaying (blocks : List Block) (shared : Servers)
    (phases : Worker → Option ReplayStage) (history : List (StartEvent Worker))
    (progress : Progress config cereal blocks shared phases history) (worker : Worker)
    (boot : Boot) (reads : Nat) (pending : List (Bytes × Int64)) (blockId : Bytes)
    (found : phases worker = some (.replaying boot reads pending blockId)) :
    ∃ rest, Walk config cereal blocks shared phases history worker reads pending blockId rest := by
  cases progress with
  | untouched free nothing early unreported =>
      obtain ⟨_, before⟩ := early worker _ found
      cases before
  | underway walker boot reads pending blockId rest here walk =>
      by_cases same : worker = walker
      · subst same
        rw [here] at found
        cases found
        exact ⟨rest, walk⟩
      · obtain ⟨_, before⟩ := walk.others worker same _ found
        cases before
  | complete taken whole ended =>
      have gone := ended worker _ found
      cases gone

section Steps
variable (throws : Bytes → Bool) (lawful : cereal.Lawful) (blocks : List Block) (shared : Servers)
variable (phases : Worker → Option ReplayStage) (history : List (StartEvent Worker))
variable (worker : Worker) (boot job : Boot) (before : List (Effect × Answer))
include lawful

theorem progress_aside (progress : Progress config cereal blocks shared phases history)
    (stage : ReplayStage) (found : phases worker = some stage) (command : Effect)
    (aside : Aside config command) (apart : config.BCLock ≠ initBalanceLocker)
    (allowed : ReplayAllowed config stage command) (carried : accepted shared command = true) :
    Progress config cereal blocks (serve throws command shared).2
      (Function.update phases worker (some stage))
      (history ++ [.executed worker job before command (serve throws command shared).1]) := by
  have locker := aside_other config throws shared command aside config.cacheService
    initBalanceLocker fun _ => Ne.symm apart
  have kept : applied config (history ++ [.executed worker job before command
      (serve throws command shared).1]) = applied config history := by
    rw [applied_executed, aside_increment config command _ aside, Option.toList_none,
      List.append_nil]
  rw [← found, Function.update_eq_self]
  cases progress with
  | untouched free nothing early unreported =>
      apply Progress.untouched _ _ early
      · rwa [reported_executed]
      · rw [locker, free]
      · rw [kept, nothing]
  | underway walker boot reads pending blockId rest here walk =>
      apply Progress.underway walker boot reads pending blockId rest here
      exact
        { walk with
          whole := by rw [kept, walk.whole]
          chain := chain_kept config cereal throws shared stage command lawful allowed carried
            _ _ walk.chain
          taken := by rw [locker]; exact walk.taken
          unreported := by rw [reported_executed]; exact walk.unreported }
  | complete taken whole ended =>
      apply Progress.complete _ _ ended
      · rwa [locker]
      · rw [kept, whole]

theorem progress_locker (progress : Progress config cereal blocks shared phases history)
    (id : Bytes) (found : phases worker = some (.before boot))
    (chain : Chain config cereal shared config.initBlockId blocks)
    (rounds : blocks.length < boot.reads)
    (alone : ∀ other, other ≠ worker → (phases other).any inReplay = false) :
    let command := .redis config.cacheService (.set initBalanceLocker id 0 .nx)
    Progress config cereal blocks (serve throws command shared).2
      (Function.update phases worker (some (nextReplayStage config cereal (.before boot) command
        (serve throws command shared).1)))
      (history ++ [.executed worker job before command (serve throws command shared).1]) := by
  intro command
  have kept := chain_kept config cereal throws shared (.before boot) command lawful
    (.inr ⟨id, rfl⟩) rfl _ _ chain
  have same : ∀ answer, applied config (history ++ [.executed worker job before command answer]) =
      applied config history := by
    intro answer
    rw [applied_executed]
    exact List.append_nil _
  have next : ∀ answer, nextReplayStage config cereal (.before boot) command answer =
      if statusAnswer answer then replayNext boot boot.reads [] config.initBlockId else .after := by
    intro answer
    simp only [command, nextReplayStage, ↓reduceIte]
  have served := serve_setNX throws shared config.cacheService initBalanceLocker id 0
  cases progress with
  | untouched free nothing early unreported =>
      rw [if_pos free] at served
      rw [next]
      simp only [command, served, statusAnswer, ↓reduceIte] at kept ⊢
      apply progress_next config cereal blocks _ phases _ worker boot boot.reads [] _ blocks
      exact
        { whole := by rw [same, nothing]; rfl
          chain := kept
          rounds := rounds
          taken := by simp
          others := fun other _ => early other
          unreported := by rwa [reported_executed] }
  | underway walker _ reads pending blockId rest here walk =>
      have different : walker ≠ worker := by
        rintro rfl
        rw [here] at found
        cases found
      have outside := alone walker different
      rw [here] at outside
      cases outside
  | complete taken whole ended =>
      rw [if_neg taken] at served
      rw [next]
      simp only [command, served, statusAnswer, Bool.false_eq_true, ↓reduceIte]
      apply Progress.complete taken
      · rw [same, whole]
      · intro other stage lookup
        rcases update_cases phases worker other _ _ lookup with ⟨-, arrived⟩ | ⟨-, was⟩
        · cases arrived
          rfl
        · exact ended other stage was

omit lawful in
/-- The block that is read is the next one of the chain. -/
theorem progress_read (progress : Progress config cereal blocks shared phases history)
    (reads : Nat) (blockId : Bytes)
    (found : phases worker = some (.replaying boot reads [] blockId)) (nonempty : blockId ≠ []) :
    let command := .redis config.dbService (.get blockId)
    Progress config cereal blocks (serve throws command shared).2
      (Function.update phases worker (some (nextReplayStage config cereal
        (.replaying boot reads [] blockId) command (serve throws command shared).1)))
      (history ++ [.executed worker job before command (serve throws command shared).1]) := by
  intro command
  obtain ⟨rest, walk⟩ := walk_of_replaying config cereal blocks shared phases history progress
    worker boot reads [] blockId found
  cases rest with
  | nil => exact absurd walk.chain nonempty
  | cons block more =>
      have present := walk.rounds
      obtain ⟨⟨-, -, text, stored, loads⟩, chain⟩ := walk.chain
      have answer : (serve throws command shared).1 = .reply (.string text) := by
        simp [command, serve, exec, stored]
      have unchanged : (serve throws command shared).2 = shared := by
        simp only [command, serve, exec_get_db, Function.update_eq_self]
      have next : nextReplayStage config cereal (.replaying boot reads [] blockId) command
          (.reply (.string text)) =
          replayNext boot (reads - 1) (blockIncrements block) block._next := by
        simp only [nextReplayStage, textOf, loads]
      rw [answer, unchanged, next]
      apply progress_next config cereal blocks shared phases _ worker boot _ _ _ more
      exact
        { whole := by
            rw [applied_executed]
            simpa [command, incrementOf] using walk.whole
          chain := chain
          rounds := by simp only [List.length_cons] at present; omega
          taken := walk.taken
          others := walk.others
          unreported := by rw [reported_executed]; exact walk.unreported }

theorem progress_increment (progress : Progress config cereal blocks shared phases history)
    (reads : Nat) (pair : Bytes × Int64) (pending : List (Bytes × Int64)) (blockId : Bytes)
    (found : phases worker = some (.replaying boot reads (pair :: pending) blockId))
    (added : (incremented (shared config.cacheService) pair.1 pair.2).isSome) :
    let command := .redis config.cacheService (.incrBy pair.1 pair.2)
    Progress config cereal blocks (serve throws command shared).2
      (Function.update phases worker (some (replayNext boot reads pending blockId)))
      (history ++ [.executed worker job before command (serve throws command shared).1]) := by
  intro command
  obtain ⟨rest, walk⟩ := walk_of_replaying config cereal blocks shared phases history progress
    worker boot reads _ blockId found
  apply progress_next config cereal blocks _ phases _ worker boot reads pending blockId rest
  exact
    { whole := by
        rw [applied_executed, incrBy_increment config throws shared pair.1 pair.2 added,
          ← walk.whole]
        simp
      chain := chain_kept config cereal throws shared (.replaying boot reads (pair :: pending)
        blockId) command lawful rfl added _ _ walk.chain
      rounds := walk.rounds
      taken := serve_present throws shared _ _ command (by simp [command]) walk.taken
      others := walk.others
      unreported := by rw [reported_executed]; exact walk.unreported }

/-- What a command does to the progress, by the stage it is executed in. -/
theorem progress_step (apart : config.BCLock ≠ initBalanceLocker)
    (progress : Progress config cereal blocks shared phases history)
    (chain : Chain config cereal shared config.initBlockId blocks)
    (rounds : ∀ worker boot, phases worker = some (.before boot) → blocks.length < boot.reads)
    (stage : ReplayStage) (found : phases worker = some stage) (command : Effect)
    (allowed : ReplayAllowed config stage command) (carried : accepted shared command = true)
    (alone : triesLocker config command = true →
      ∀ other, other ≠ worker → (phases other).any inReplay = false) :
    Progress config cereal blocks (serve throws command shared).2
      (Function.update phases worker (some (nextReplayStage config cereal stage command
        (serve throws command shared).1)))
      (history ++ [.executed worker job before command (serve throws command shared).1]) := by
  cases stage with
  | before boot =>
      rcases allowed with aside | ⟨id, rfl⟩
      · rw [(before_steady config cereal apart boot command aside).2]
        exact progress_aside config cereal throws lawful blocks shared phases history worker job
          before progress (.before boot) found command aside apart (.inl aside) carried
      · exact progress_locker config cereal throws lawful blocks shared phases history worker boot
          job before progress id found chain (rounds worker boot found)
          (alone (by simp [triesLocker]))
  | replaying boot reads pending blockId =>
      cases pending with
      | nil =>
          obtain ⟨-, nonempty, rfl⟩ := allowed
          exact progress_read config cereal throws blocks shared phases history worker boot job
            before progress reads blockId found nonempty
      | cons pair pending =>
          have one : command = .redis config.cacheService (.incrBy pair.1 pair.2) := allowed
          subst one
          exact progress_increment config cereal throws lawful blocks shared phases history worker
            boot job before progress reads pair pending blockId found carried
  | after =>
      exact progress_aside config cereal throws lawful blocks shared phases history worker job
        before progress .after found command allowed apart allowed carried

end Steps

/-- Who has the replay before it still has the rounds for it. -/
theorem rounds_move (blocks : List Block) (phases : Worker → Option ReplayStage) (worker : Worker)
    (next : Option ReplayStage)
    (rounds : ∀ worker boot, phases worker = some (.before boot) → blocks.length < boot.reads)
    (arriving : ∀ boot, next = some (.before boot) → blocks.length < boot.reads)
    (other : Worker) (boot : Boot)
    (lookup : Function.update phases worker next other = some (.before boot)) :
    blocks.length < boot.reads := by
  rcases update_cases phases worker other next _ lookup with ⟨-, arrived⟩ | ⟨-, was⟩
  · exact arriving boot arrived
  · exact rounds other boot was

/-- Phases change for a worker that has nothing to do with the replay. -/
theorem progress_outside (blocks : List Block) (shared : Servers)
    (phases : Worker → Option ReplayStage) (history later : List (StartEvent Worker))
    (worker : Worker) (next : Option ReplayStage)
    (progress : Progress config cereal blocks shared phases history)
    (was : (phases worker).any inReplay = false) (early : Early next)
    (same : applied config later = applied config history)
    (silent : Early (phases worker) → reported history = false → reported later = false) :
    Progress config cereal blocks shared (Function.update phases worker next) later := by
  have others : ∀ other, Early (phases other) →
      Early (Function.update phases worker next other) := by
    intro other before
    by_cases mine : other = worker
    · subst mine
      rwa [Function.update_self]
    · rwa [Function.update_of_ne mine]
  cases progress with
  | untouched free nothing before unreported =>
      exact Progress.untouched free (same.trans nothing) (fun other => others other (before other))
        (silent (before worker) unreported)
  | underway walker boot reads pending blockId rest here walk =>
      have different : walker ≠ worker := by
        rintro rfl
        rw [here] at was
        cases was
      apply Progress.underway walker boot reads pending blockId rest
      · rw [Function.update_of_ne different, here]
      · exact
          { walk with
            whole := by rw [same, walk.whole]
            others := fun other apart => others other (walk.others other apart)
            unreported := silent (walk.others worker (Ne.symm different)) walk.unreported }
  | complete taken whole ended =>
      apply Progress.complete taken (same.trans whole)
      intro other stage lookup
      rcases update_cases phases worker other _ _ lookup with ⟨-, arrived⟩ | ⟨-, before⟩
      · obtain ⟨boot, rfl⟩ := early stage arrived
        rfl
      · exact ended other stage before

theorem replayed_keeps (lawful : cereal.Lawful) (apart : config.BCLock ≠ initBalanceLocker)
    (throws : Bytes → Bool) (blocks : List Block) (start : Servers) :
    (replaying config cereal : Discipline Worker _ _ _ _).Keeps (serve throws) Ends
      (Undisturbed config cereal blocks) (Replayed config cereal blocks start) where
  begins := by
    intro pool worker boot absent enough replayed
    refine ⟨replayed.chain, replayed.balances, ?_, ?_⟩
    · apply rounds_move blocks _ worker _ replayed.rounds
      intro _ arrived
      cases arrived
      exact enough
    · apply progress_outside config cereal blocks _ _ _ _ worker _ replayed.progress
      · rw [absent]
        rfl
      · rintro stage entered
        cases entered
        exact ⟨boot, rfl⟩
      · rfl
      · exact fun _ unreported => unreported
  issues := by
    intro pool worker call command next running rest allowed meets replayed
    have found := (replaying config cereal).phases_running pool worker call running
    obtain ⟨carried, alone⟩ :=
      meets command (nextCommand_eq pool worker call command next running rest)
    generalize (replaying config cereal).phaseOf worker call = stage at allowed found
    refine ⟨chain_kept config cereal throws _ stage command lawful allowed carried _ _
      replayed.chain, ?_, ?_, ?_⟩
    · intro account notLock notLocker
      rw [balance_step config throws _ stage command allowed carried account notLock notLocker,
        replayed.balances account notLock notLocker, applied_executed, sumAt_append,
        Int64.add_assoc]
    · apply rounds_move blocks _ worker _ replayed.rounds
      intro boot arrived
      have before := next_before config cereal stage command _ boot (Option.some.inj arrived)
      exact replayed.rounds worker boot (by rw [found, before])
    · exact progress_step config cereal throws lawful blocks pool.shared _ _ worker _ _ apart
        replayed.progress replayed.chain replayed.rounds stage found command allowed carried
        fun tries => alone tries
  returns := by
    intro shared phases history worker boot stage result found ends replayed
    refine ⟨replayed.chain, ?_, ?_, ?_⟩
    · intro account notLock notLocker
      rw [applied_returned]
      exact replayed.balances account notLock notLocker
    · apply rounds_move blocks _ worker _ replayed.rounds
      intro _ arrived
      cases arrived
    · apply progress_outside config cereal blocks _ _ _ _ worker _ replayed.progress
      · rw [found]
        cases stage with
        | before _ => rfl
        | after => rfl
        | replaying boot reads pending blockId =>
            -- The rounds last to the end of the chain.
            obtain ⟨rest, walk⟩ := walk_of_replaying config cereal blocks shared phases history
              replayed.progress worker boot reads pending blockId found
            exact absurd walk.rounds (by rw [ends.1]; exact Nat.not_lt_zero _)
      · rintro stage entered
        cases entered
      · exact applied_returned config history worker boot result
      · intro early unreported
        obtain ⟨_, rfl⟩ := early stage found
        rw [reported_returned history worker boot result ends, unreported]

/-- In every run in which nobody tries the locker while another worker is in the
replay, and no `INCRBY` is refused: once a call has returned true, the increments
that were carried out are those of the blocks of the chain, each once and in
order, and the balances have moved by what their transactions move. -/
theorem balances_replayed_once (self : Worker → FPService) (lawful : cereal.Lawful)
    (apart : config.BCLock ≠ initBalanceLocker) (throws : Bytes → Bool) (start : Servers)
    (free : (start config.cacheService).lookup initBalanceLocker = none) (blocks : List Block)
    (chain : Chain config cereal start config.initBlockId blocks)
    (schedule : List (Choice Worker Boot))
    (undisturbed : Along (serve throws) (starters config cereal self)
      (Undisturbed config cereal blocks) (idle start) schedule) :
    let pool := runPool (serve throws) (starters config cereal self) (idle start) schedule
    reported pool.history = true →
      applied config pool.history = blocks.flatMap blockIncrements ∧
        ∀ account, account ≠ [] → account ≠ config.BCLock → account ≠ initBalanceLocker →
          Int64.ofInt (balanceOf (pool.shared config.cacheService) account) =
            Int64.ofInt (balanceOf (start config.cacheService) account) +
              movedAll (blocks.flatMap fun block => block._txList) account := by
  intro pool returned
  obtain ⟨-, replayed⟩ := Discipline.run_keeps
    (replayed_keeps config cereal lawful apart throws blocks start)
    (fun _ worker boot _ => starters_follows config cereal apart self worker boot)
    (idle start) schedule undisturbed (Discipline.idle_tracked start)
    { chain := chain
      balances := fun account _ _ => (Int64.add_zero _).symm
      rounds := by simp [Discipline.idle_phases]
      progress := Progress.untouched free rfl
        (by simp [Discipline.idle_phases, Early]) rfl }
  have whole : applied config pool.history = blocks.flatMap blockIncrements := by
    cases replayed.progress with
    | untouched free nothing early unreported =>
        rw [unreported] at returned
        cases returned
    | underway worker boot reads pending blockId rest here walk =>
        rw [walk.unreported] at returned
        cases returned
    | complete taken whole ended => exact whole
  refine ⟨whole, fun account named notLock notLocker => ?_⟩
  rw [replayed.balances account notLock notLocker, whole, sumAt_blocks account named blocks]

end Runs

def rootBoot : Boot := ⟨ascii "127.0.0.1:9090", true, .root, true, fun _ => ⟨0, 0⟩, 1, 2⟩

theorem shipped_chain :
    Chain rootServerConf cerealJson shippedStart rootServerConf.initBlockId [genesisBlock] :=
  ⟨⟨by decide +kernel, fun _ => by decide +kernel, cerealJson.block.toString genesisBlock,
    Finmap.lookup_insert _,
    fun memory => cerealJson_lawful.block.round genesisBlock _ genesisBlock_clean⟩, rfl⟩

/-- One worker comes to the end of its replay before the other one comes. -/
def replayThenStart : List (Choice Bool Boot) :=
  [.start false rootBoot] ++ List.replicate 5 (.advance false) ++
    [.start true rootBoot] ++ List.replicate 3 (.advance true)

theorem balances_replayed_once_genesis :
    let pool := runPool (serve fun _ => false)
      (starters rootServerConf cerealJson fun _ => rootService) (idle shippedStart) replayThenStart
    applied rootServerConf pool.history = [genesisBlock].flatMap blockIncrements ∧
      ∀ account, account ≠ [] → account ≠ rootServerConf.BCLock → account ≠ initBalanceLocker →
        Int64.ofInt (balanceOf (pool.shared rootServerConf.cacheService) account) =
          Int64.ofInt (balanceOf (shippedStart rootServerConf.cacheService) account) +
            movedAll ([genesisBlock].flatMap fun block => block._txList) account :=
  balances_replayed_once rootServerConf cerealJson (fun _ => rootService) cerealJson_lawful
    (by decide +kernel) (fun _ => false) shippedStart
    (Finmap.lookup_insert_of_ne _ (by decide +kernel)) [genesisBlock] shipped_chain replayThenStart
    (by decide +kernel) (by decide +kernel)

/-- The worker that took the locker has not read a block, and may never do so,
when the other one finds the locker taken and goes on. -/
def startBesideReplay : List (Choice Bool Boot) :=
  [.start false rootBoot] ++ List.replicate 3 (.advance false) ++
    [.start true rootBoot] ++ List.replicate 3 (.advance true)

theorem loser_returns_before_replay :
    Chain rootServerConf cerealJson shippedStart rootServerConf.initBlockId [genesisBlock] ∧
    let pool := runPool (serve fun _ => false)
      (starters rootServerConf cerealJson fun _ => rootService) (idle shippedStart)
      startBesideReplay
    reported pool.history = true ∧ applied rootServerConf pool.history = [] ∧
      [genesisBlock].flatMap blockIncrements ≠ [] :=
  ⟨shipped_chain, by decide +kernel, by decide +kernel, by decide +kernel⟩

end FPayNode.BalanceReplay
