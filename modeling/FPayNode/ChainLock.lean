import FPayNode.NodeStartup
import Mathlib.Data.Fintype.Basic

/-!
The lock of the block chain, which every node gives back before it has taken it.
`releaseLock` reads the owner and deletes the lock by two commands, and takes an
empty answer for its own. Nodes start up side by side, command by command.
-/

namespace FPayNode.ChainLock

open CommandProgram WorkerPool DecimalText RedisServer RedisCache Messages NodeService
open BlockCreation NodeStartup

section Stages
variable (config : Config) (cereal : Cereal)

/-- The parts of `init` between its calls of `releaseLock`. -/
inductive Part where
  | acquiring | syncing | balances | replaying | loggingIn | ended
  deriving DecidableEq

/-- Before the `GET` of a `releaseLock`, between it and the `DEL`, or in a part of
its own. -/
inductive ChainStage where
  | releasing (next : Part)
  | deleting (next : Part)
  | doing (part : Part)
  deriving DecidableEq

/-- Without a name the lock is neither read nor deleted. -/
def release (part : Part) : ChainStage :=
  if config.BCLock = [] then .doing part else .releasing part

def synchronise : ChainStage :=
  if config.lastBlockKey = [] then release config .balances else .doing .syncing

/-- What a node of some id issues. -/
def ChainAllowed (id : Bytes) : ChainStage → Effect → Prop
  | .releasing _, command => command = .redis config.cacheService (.get config.BCLock)
  | .deleting _, command => command = .redis config.cacheService (.del config.BCLock)
  | .doing .acquiring, command =>
      command = .redis config.cacheService (.set config.BCLock id 0 .nx)
  | .doing .syncing, command => command = .redis config.dbService (.get config.lastBlockKey)
  | .doing .balances, command =>
      command = .redis config.cacheService (.set initBalanceLocker id 0 .nx)
  | .doing .replaying, command =>
      (∃ key, command = .redis config.dbService (.get key)) ∨
        (∃ key increment, command = .redis config.cacheService (.incrBy key increment)) ∨
        command = .redis config.cacheService (.set config.BCLock id 0 .nx)
  | .doing .loggingIn, command =>
      (∃ ipport uri body, command = .sendTo ipport uri body) ∨
        command = .redis config.cacheService (.get config.BCLock)
  | .doing .ended, _ => False

/-- Behind the `GET` of a `releaseLock`. -/
def afterRead (id : Bytes) (part : Part) (answer : Answer) : ChainStage :=
  if (textOf [] answer).2 = [] ∨ (textOf [] answer).2 = id then .deleting part else .doing part

def nextChainStage (id : Bytes) : ChainStage → Effect → Answer → ChainStage
  | .releasing part, _, answer => afterRead id part answer
  | .deleting part, _, _ => .doing part
  | .doing .acquiring, _, answer =>
      if statusAnswer answer then synchronise config else .doing .acquiring
  | .doing .syncing, _, _ => release config .balances
  | .doing .balances, _, _ => .doing .replaying
  | .doing .replaying, .redis _ (.set _ _ _ _), answer =>
      if statusAnswer answer then .doing .loggingIn else .doing .ended
  | .doing .replaying, _, _ => .doing .replaying
  | .doing .loggingIn, .sendTo _ _ _, answer =>
      if answer = .threw then .doing .ended else release config .ended
  | .doing .loggingIn, _, answer => afterRead id .ended answer
  | .doing .ended, _, _ => .doing .ended

theorem doing_proper (part other : Part) : ChainStage.doing part ≠ .deleting other := by
  intro same
  cases same

theorem release_proper (part other : Part) : release config part ≠ .deleting other := by
  rw [release]
  split
  · exact doing_proper part other
  · intro same
    cases same

theorem synchronise_proper (other : Part) : synchronise config ≠ .deleting other := by
  rw [synchronise]
  split
  · exact release_proper config .balances other
  · exact doing_proper .syncing other

variable {Worker : Type} (self : Worker → FPService)

/-- The stage of a call, beside the id of its node. -/
def chaining : Discipline Worker Boot Effect Answer (Bytes × ChainStage) where
  entry worker boot :=
    ((self worker)._id, release config (if boot.nodeRole = .miner then .acquiring else .balances))
  allowed phase := ChainAllowed config phase.1 phase.2
  next phase command answer := (phase.1, nextChainStage config phase.1 phase.2 command answer)

/-- A call follows the stages from some stage on. -/
def Goes (id : Bytes) (stage : ChainStage) (program : Calls Started) : Prop :=
  (chaining config self).Follows (fun _ _ => True) (id, stage) program

/-- A `releaseLock`, and what comes behind it. -/
theorem releaseLock_goes (node : FPService) (part : Part) (rest : Unit → Calls Started)
    (behind : Goes config self node._id (.doing part) (rest ())) :
    Goes config self node._id (release config part)
      (releaseLock config node config.BCLock >>= rest) := by
  simp only [releaseLock, get_form, delete_form, release]
  by_cases unnamed : config.BCLock = []
  · simp only [unnamed, ↓reduceIte, Program.finish_bind, List.isEmpty_nil, Bool.true_or,
      Program.pure_def]
    exact behind
  · simp only [unnamed, ↓reduceIte, Program.issue_bind, Program.finish_bind]
    refine ⟨rfl, fun answer => ?_⟩
    change Goes config self node._id (afterRead node._id part answer) _
    rw [afterRead]
    by_cases mine : (textOf [] answer).2 = [] ∨ (textOf [] answer).2 = node._id
    · simp only [List.isEmpty_iff, Bool.or_eq_true, decide_eq_true_eq, mine, ↓reduceIte]
      exact ⟨rfl, fun _ => behind⟩
    · simp only [List.isEmpty_iff, Bool.or_eq_true, decide_eq_true_eq, mine, ↓reduceIte]
      exact behind

theorem initLogin_goes (node : FPService) :
    Goes config self node._id (.doing .replaying) (initLogin config cereal node) := by
  rw [initLogin]
  split
  · simp only [tryLock, setNX_form]
    split
    · exact trivial
    · next named =>
        simp only [Program.issue_bind, Program.finish_bind]
        refine ⟨.inr (.inr rfl), fun answer => ?_⟩
        change Goes config self node._id
          (if statusAnswer answer then .doing .loggingIn else .doing .ended) _
        dsimp only
        cases statusAnswer answer with
        | false => exact trivial
        | true =>
            have released : ∀ loginSuccess, Goes config self node._id (release config .ended)
                (releaseLock config node config.BCLock >>= fun _ =>
                  .finish (some (.ok loginSuccess))) := fun loginSuccess =>
              releaseLock_goes config self node .ended _ trivial
            simp only [↓reduceIte, login]
            split
            · -- Nothing is sent, and the lock is given back at once.
              have read := released false
              rw [release, if_neg named] at read
              simp only [releaseLock, get_form, named, ↓reduceIte, Program.issue_bind] at read
              simp only [Program.pure_def, Program.finish_bind, releaseLock, get_form, named,
                ↓reduceIte, Program.issue_bind]
              exact ⟨.inr rfl, read.2⟩
            · simp only [Program.perform_bind, Program.issue_bind]
              refine ⟨.inl ⟨_, _, _, rfl⟩, fun answer => ?_⟩
              change Goes config self node._id
                (if answer = .threw then .doing .ended else release config .ended) _
              cases answer with
              | threw => exact trivial
              | reply reply => exact released true
              | lost => exact released true
              | sent => exact released true
  · exact trivial

/-- Reading blocks and adding to balances stay in the replay. -/
theorem initBalances_goes (node : FPService) (boot : Boot) :
    Goes config self node._id (.doing .balances) (initBalances config cereal node boot) := by
  have named : initBalanceLocker ≠ [] := by decide
  simp only [initBalances, tryLock, setNX_form, named, ↓reduceIte, Program.issue_bind,
    Program.finish_bind]
  refine ⟨rfl, fun answer => ?_⟩
  change Goes config self node._id (.doing .replaying) _
  dsimp only
  split
  · apply Discipline.follows_bind _ fun phase _ => phase = (node._id, .doing .replaying)
    · apply Discipline.follows_steady
      · exact initBalance_issues config cereal _ _ _ _
          (fun key => ⟨.inl ⟨key, rfl⟩, fun _ => rfl⟩)
          fun key increment => ⟨.inr (.inl ⟨key, increment, rfl⟩), fun _ => rfl⟩
      · exact fun _ => rfl
    · rintro phase replayed rfl
      cases replayed with
      | none => exact trivial
      | some _ => exact initLogin_goes config cereal self node
  · exact initLogin_goes config cereal self node

theorem acquireLock_goes (node : FPService) (spins : Nat) (rest : Bool → Calls Started)
    (granted : Goes config self node._id (synchronise config) (rest true))
    (waits : rest false = .finish none) :
    Goes config self node._id (.doing .acquiring)
      (acquireLock config node config.BCLock spins >>= rest) := by
  induction spins with
  | zero =>
      simp only [acquireLock, Program.pure_def, Program.finish_bind, waits]
      exact trivial
  | succ spins ih =>
      simp only [acquireLock, setNX_form]
      split
      · simp only [Program.finish_bind, Bool.false_eq_true, ↓reduceIte]
        exact ih
      · simp only [Program.issue_bind, Program.finish_bind]
        refine ⟨rfl, fun answer => ?_⟩
        change Goes config self node._id
          (if statusAnswer answer then synchronise config else .doing .acquiring) _
        dsimp only
        cases statusAnswer answer with
        | false => exact ih
        | true => exact granted

theorem initSync_goes (node : FPService) (boot : Boot) :
    Goes config self node._id
      (.doing (if node._nodeRole = .miner then .acquiring else .balances))
      (initSync config cereal node boot) := by
  rw [initSync]
  split
  · apply acquireLock_goes
    · have released : Goes config self node._id (release config .balances)
          (releaseLock config node config.BCLock >>= fun _ =>
            initBalances config cereal node boot) :=
        releaseLock_goes config self node .balances _
          (initBalances_goes config cereal self node boot)
      simp only [↓reduceIte, syncBlockChain, getLastBlock, getBlock_form, synchronise]
      split
      · simpa only [Program.finish_bind, Program.pure_def, Bool.not_true, Bool.false_eq_true,
          ↓reduceIte] using released
      · simp only [Program.issue_bind, Program.finish_bind, Program.pure_def, Bool.not_true,
          Bool.false_eq_true, ↓reduceIte]
        exact ⟨rfl, fun _ => released⟩
    · rfl
  · exact initBalances_goes config cereal self node boot

theorem init_goes (worker : Worker) (boot : Boot) :
    (chaining config self).Follows (fun _ _ => True) ((chaining config self).entry worker boot)
      (starters config cereal self worker boot) := by
  rw [starters, init]
  split
  · exact trivial
  · split
    · exact trivial
    · exact releaseLock_goes config self
        { self worker with
          _hostport := boot.hostPort
          _routeTarget := boot.routeTarget
          _parentNode := config.parentNode
          _nodeRole := boot.nodeRole } _ _ (initSync_goes config cereal self _ boot)

end Stages

/-! Runs. -/

section Runs
variable {Worker : Type} (config : Config) (self : Worker → FPService)

/-- Whether a worker is between a `SET NX` on the lock that was granted and the
end of its next `releaseLock`: the delete, or the read of another id. -/
def chainLockStep (id : Bytes) (held : Bool) : Effect × Answer → Bool
  | (.redis service (.set key _ _ .nx), answer) =>
      if service = config.cacheService ∧ key = config.BCLock then held || statusAnswer answer
      else held
  | (.redis service (.del key), _) =>
      if service = config.cacheService ∧ key = config.BCLock then false else held
  | (.redis service (.get key), answer) =>
      if service = config.cacheService ∧ key = config.BCLock ∧
          (textOf [] answer).2 ≠ [] ∧ (textOf [] answer).2 ≠ id then false
      else held
  | _ => held

variable [DecidableEq Worker]

def holdsChainLock (history : List (StartEvent Worker)) (worker : Worker) : Bool :=
  history.foldl (fun held => fun
    | .executed other _ _ command answer =>
        if other = worker then chainLockStep config (self worker)._id held (command, answer)
        else held
    | .returned _ _ _ => held) false

def chainRecord (shared : Servers) : Option Value :=
  (shared config.cacheService).lookup config.BCLock

/-- A `SET NX` on the lock is not granted between the `GET` and the `DEL` of
another worker's `releaseLock`, and nothing is paid to or from the lock as an
account. -/
def Undisturbed
    (pool : Pool Worker Boot Effect Answer Started (Servers × Nat)) (worker : Worker) :
    Effect → Prop
  | .redis service (.set key _ _ .nx) =>
      service = config.cacheService → key = config.BCLock →
        chainRecord config pool.shared.1 = none → ∀ other, other ≠ worker →
          nextCommand pool other ≠ some (.redis config.cacheService (.del config.BCLock))
  | .redis service (.incrBy key _) => service = config.cacheService → key ≠ config.BCLock
  | _ => True

def Respects (pool : Pool Worker Boot Effect Answer Started (Servers × Nat)) :
    Choice Worker Boot → Prop
  | .start _ _ => True
  | .advance worker =>
      ∀ command ∈ nextCommand pool worker, Undisturbed config pool worker command

instance [Fintype Worker] (pool : Pool Worker Boot Effect Answer Started (Servers × Nat))
    (worker : Worker) : ∀ command, Decidable (Undisturbed config pool worker command)
  | .redis service (.set key _ _ .nx) =>
      inferInstanceAs (Decidable (service = config.cacheService → key = config.BCLock →
        chainRecord config pool.shared.1 = none → ∀ other, other ≠ worker →
          nextCommand pool other ≠ some (.redis config.cacheService (.del config.BCLock))))
  | .redis service (.incrBy key _) =>
      inferInstanceAs (Decidable (service = config.cacheService → key ≠ config.BCLock))
  | .redis _ (.set _ _ _ .always) => .isTrue trivial
  | .redis _ (.set _ _ _ .xx) => .isTrue trivial
  | .redis _ (.get _) => .isTrue trivial
  | .redis _ (.del _) => .isTrue trivial
  | .redis _ (.rpush _ _) => .isTrue trivial
  | .redis _ (.lrange _ _ _) => .isTrue trivial
  | .redis _ (.sadd _ _) => .isTrue trivial
  | .redis _ (.smembers _) => .isTrue trivial
  | .sendTo _ _ _ => .isTrue trivial

instance [Fintype Worker] (pool : Pool Worker Boot Effect Answer Started (Servers × Nat)) :
    ∀ choice, Decidable (Respects config pool choice)
  | .start _ _ => .isTrue trivial
  | .advance worker => inferInstanceAs (Decidable (∀ command ∈ nextCommand pool worker, _))

/-- The lock names its holder, and nobody is about to delete it under another. -/
structure Claimed (node : Worker → FPService) (shared : Servers)
    (phases : Worker → Option (Bytes × ChainStage)) (history : List (StartEvent Worker)) :
    Prop where
  recorded : ∀ worker, holdsChainLock config node history worker = true →
    chainRecord config shared = some (.string (node worker)._id)
  named : ∀ worker phase, phases worker = some phase → phase.1 = (node worker)._id
  deleting : ∀ worker id part, phases worker = some (id, .deleting part) →
    ∀ other, other ≠ worker → holdsChainLock config node history other = false

theorem holds_executed (history : List (StartEvent Worker)) (worker other : Worker) (boot : Boot)
    (before : List (Effect × Answer)) (command : Effect) (answer : Answer) :
    holdsChainLock config self (history ++ [.executed worker boot before command answer]) other =
      if worker = other then
        chainLockStep config (self other)._id (holdsChainLock config self history other)
          (command, answer)
      else holdsChainLock config self history other := by
  simp [holdsChainLock]

/-- The condition in terms of the phases: who is to delete stands behind the
`GET` of a `releaseLock`. -/
def Unguarded (pool : Pool Worker Boot Effect Answer Started (Servers × Nat)) :
    Choice Worker Boot → Prop
  | .start _ _ => True
  | .advance worker => ∀ command ∈ nextCommand pool worker,
      (∀ value duration,
        command = .redis config.cacheService (.set config.BCLock value duration .nx) →
        chainRecord config pool.shared.1 = none → ∀ other, other ≠ worker → ∀ id part,
          (chaining config self).phases pool other ≠ some (id, .deleting part)) ∧
      ∀ key increment, command = .redis config.cacheService (.incrBy key increment) →
        key ≠ config.BCLock

omit [DecidableEq Worker] in
theorem respects_unguarded
    (pool : Pool Worker Boot Effect Answer Started (Servers × Nat)) (choice : Choice Worker Boot)
    (tracked : (chaining config self).Tracked (fun _ _ => True) pool)
    (respects : Respects config pool choice) : Unguarded config self pool choice := by
  cases choice with
  | start worker boot => exact trivial
  | advance worker =>
      intro command chosen
      have undisturbed := respects command chosen
      constructor
      · rintro value duration rfl free other different id part found
        obtain ⟨call, running, phase⟩ := Option.map_eq_some_iff.mp found
        obtain ⟨⟨next, rest, issues⟩, follows⟩ := tracked other call running
        rw [issues, phase] at follows
        have deletes : next = .redis config.cacheService (.del config.BCLock) := follows.1
        apply undisturbed rfl rfl free other different
        rw [nextCommand_eq pool other call next rest running issues, deletes]
      · rintro key increment rfl
        exact undisturbed rfl

section Steps
variable (throws : Bytes → Bool) (shared : Servers)
variable (phases : Worker → Option (Bytes × ChainStage)) (history : List (StartEvent Worker))
variable (worker : Worker) (boot : Boot) (before : List (Effect × Answer)) (stage next : ChainStage)
variable (claimed : Claimed config self shared phases history)
include claimed

/-- What a step of one worker has to give for the lock to stay claimed: its
holder is recorded, others find their record unchanged, and who deletes does so
under nobody else, who takes the lock takes it from nobody who deletes. -/
theorem claimed_move (after : Servers) (command : Effect) (answer : Answer)
    (recorded : chainLockStep config (self worker)._id (holdsChainLock config self history worker)
        (command, answer) = true → chainRecord config after = some (.string (self worker)._id))
    (keeping : ∀ other, other ≠ worker → holdsChainLock config self history other = true →
      chainRecord config after = chainRecord config shared)
    (deleting : ∀ part, next = .deleting part → ∀ other, other ≠ worker →
      holdsChainLock config self history other = false)
    (taking : chainLockStep config (self worker)._id (holdsChainLock config self history worker)
        (command, answer) = true → holdsChainLock config self history worker = true ∨
      ∀ other, other ≠ worker → ∀ id part, phases other ≠ some (id, .deleting part)) :
    Claimed config self after (Function.update phases worker (some ((self worker)._id, next)))
      (history ++ [.executed worker boot before command answer]) where
  recorded := by
    intro other holds
    rw [holds_executed] at holds
    split at holds
    · next same =>
        subst same
        exact recorded holds
    · next different =>
        rw [keeping other (Ne.symm different) holds]
        exact claimed.recorded other holds
  named := by
    intro other phase lookup
    rcases update_cases phases worker other _ _ lookup with ⟨rfl, arrived⟩ | ⟨-, was⟩
    · rw [← Option.some.inj arrived]
    · exact claimed.named other phase was
  deleting := by
    intro deleter id part lookup other different
    rw [holds_executed]
    rcases update_cases phases worker deleter _ _ lookup with ⟨rfl, arrived⟩ | ⟨-, was⟩
    · rw [if_neg (Ne.symm different)]
      exact deleting part (congrArg Prod.snd (Option.some.inj arrived)) other different
    · have apart := claimed.deleting deleter id part was
      split
      · next same =>
          subst same
          rw [← Bool.not_eq_true]
          intro takes
          rcases taking takes with held | free
          · rw [apart worker different] at held
            cases held
          · exact free deleter (Ne.symm different) id part was
      · exact apart other different

/-- What neither takes nor deletes the lock. -/
theorem claimed_aside (after : Servers) (command : Effect) (answer : Answer)
    (held : chainLockStep config (self worker)._id (holdsChainLock config self history worker)
      (command, answer) = true → holdsChainLock config self history worker = true)
    (same : chainRecord config after = chainRecord config shared)
    (deleting : ∀ part, next = .deleting part → ∀ other, other ≠ worker →
      holdsChainLock config self history other = false) :
    Claimed config self after (Function.update phases worker (some ((self worker)._id, next)))
      (history ++ [.executed worker boot before command answer]) := by
  apply claimed_move config self shared phases history worker boot before next claimed
  · intro holds
    rw [same]
    exact claimed.recorded worker (held holds)
  · exact fun _ _ _ => same
  · exact deleting
  · exact fun holds => .inl (held holds)

/-- Reading the lock as one's own, or as nobody's, one finds it unclaimed by
anybody else. -/
theorem read_unclaimed (distinct : Function.Injective fun worker => (self worker)._id)
    (named : ∀ worker, (self worker)._id ≠ [])
    (mine : (textOf [] (serve throws (.redis config.cacheService (.get config.BCLock))
        shared).1).2 = [] ∨
      (textOf [] (serve throws (.redis config.cacheService (.get config.BCLock))
        shared).1).2 = (self worker)._id) :
    ∀ other, other ≠ worker → holdsChainLock config self history other = false := by
  intro other different
  rw [← Bool.not_eq_true]
  intro holds
  have owner : (shared config.cacheService).lookup config.BCLock =
      some (.string (self other)._id) := claimed.recorded other holds
  have read : (textOf [] (serve throws (.redis config.cacheService (.get config.BCLock))
      shared).1).2 = (self other)._id := by
    simp only [serve, exec, owner, textOf]
  rw [read] at mine
  rcases mine with empty | same
  · exact named other empty
  · exact different (distinct same)

/-! One lemma for each command. -/

theorem claimed_get (service key : Bytes)
    (deleting : ∀ part, next = .deleting part → ∀ other, other ≠ worker →
      holdsChainLock config self history other = false) :
    Claimed config self (serve throws (.redis service (.get key)) shared).2
      (Function.update phases worker (some ((self worker)._id, next)))
      (history ++ [.executed worker boot before (.redis service (.get key))
        (serve throws (.redis service (.get key)) shared).1]) := by
  apply claimed_aside config self shared phases history worker boot before next claimed
  · intro holds
    simp only [chainLockStep] at holds
    split at holds
    · cases holds
    · exact holds
  · exact serve_lookup_other throws shared config.cacheService service config.BCLock (.get key)
      fun db => by rw [exec_get_db]
  · exact deleting

theorem claimed_setNX (key : Bytes)
    (free : key = config.BCLock → chainRecord config shared = none → ∀ other, other ≠ worker →
      ∀ id part, phases other ≠ some (id, .deleting part))
    (proper : ∀ part, next ≠ .deleting part) :
    Claimed config self
      (serve throws (.redis config.cacheService (.set key (self worker)._id 0 .nx)) shared).2
      (Function.update phases worker (some ((self worker)._id, next)))
      (history ++ [.executed worker boot before
        (.redis config.cacheService (.set key (self worker)._id 0 .nx))
        (serve throws (.redis config.cacheService (.set key (self worker)._id 0 .nx))
          shared).1]) := by
  rw [serve_setNX]
  by_cases absent : (shared config.cacheService).lookup key = none
  · rw [if_pos absent]
    by_cases lock : key = config.BCLock
    · -- The lock is granted: nobody held it, and now this worker does.
      subst lock
      have nobody : ∀ other, holdsChainLock config self history other = true → False := by
        intro other holds
        have taken := claimed.recorded other holds
        rw [chainRecord, absent] at taken
        cases taken
      apply claimed_move config self shared phases history worker boot before next claimed
      · intro _
        simp only [chainRecord, Function.update_self, Finmap.lookup_insert]
      · exact fun other _ holds => (nobody other holds).elim
      · exact fun part arrives => absurd arrives (proper part)
      · exact fun _ => .inr (free rfl absent)
    · apply claimed_aside config self shared phases history worker boot before next claimed
      · intro holds
        simpa only [chainLockStep, lock, and_false, ↓reduceIte] using holds
      · simp only [chainRecord, Function.update_self]
        exact Finmap.lookup_insert_of_ne _ (Ne.symm lock)
      · exact fun part arrives => absurd arrives (proper part)
  · rw [if_neg absent]
    apply claimed_aside config self shared phases history worker boot before next claimed
    · intro holds
      simpa only [chainLockStep, statusAnswer, Bool.or_false, ite_self] using holds
    · rfl
    · exact fun part arrives => absurd arrives (proper part)

theorem claimed_delete
    (unclaimed : ∀ other, other ≠ worker → holdsChainLock config self history other = false)
    (proper : ∀ part, next ≠ .deleting part) :
    Claimed config self
      (serve throws (.redis config.cacheService (.del config.BCLock)) shared).2
      (Function.update phases worker (some ((self worker)._id, next)))
      (history ++ [.executed worker boot before (.redis config.cacheService (.del config.BCLock))
        (serve throws (.redis config.cacheService (.del config.BCLock)) shared).1]) := by
  have given : ∀ held answer, chainLockStep config (self worker)._id held
      (.redis config.cacheService (.del config.BCLock), answer) = false := by
    intro held answer
    simp only [chainLockStep, and_self, ↓reduceIte]
  apply claimed_move config self shared phases history worker boot before next claimed
  · intro holds
    rw [given] at holds
    cases holds
  · intro other different holds
    rw [unclaimed other different] at holds
    cases holds
  · exact fun part arrives => absurd arrives (proper part)
  · intro holds
    rw [given] at holds
    cases holds

theorem claimed_incrBy (key : Bytes) (increment : Int64) (unpaid : key ≠ config.BCLock)
    (proper : ∀ part, next ≠ .deleting part) :
    Claimed config self
      (serve throws (.redis config.cacheService (.incrBy key increment)) shared).2
      (Function.update phases worker (some ((self worker)._id, next)))
      (history ++ [.executed worker boot before (.redis config.cacheService (.incrBy key increment))
        (serve throws (.redis config.cacheService (.incrBy key increment)) shared).1]) := by
  apply claimed_aside config self shared phases history worker boot before next claimed
  · exact fun holds => holds
  · exact serve_lookup_other throws shared config.cacheService config.cacheService config.BCLock
      (.incrBy key increment) fun db => afterIncr_lookup_other db key _ increment (Ne.symm unpaid)
  · exact fun part arrives => absurd arrives (proper part)

theorem claimed_send (ipport : Bytes) (uri : UInt8) (body : Bytes)
    (proper : ∀ part, next ≠ .deleting part) :
    Claimed config self (serve throws (.sendTo ipport uri body) shared).2
      (Function.update phases worker (some ((self worker)._id, next)))
      (history ++ [.executed worker boot before (.sendTo ipport uri body)
        (serve throws (.sendTo ipport uri body) shared).1]) := by
  apply claimed_aside config self shared phases history worker boot before next claimed
  · exact fun holds => holds
  · rfl
  · exact fun part arrives => absurd arrives (proper part)

/-- The stage behind the `GET` of a `releaseLock`. -/
theorem claimed_read (distinct : Function.Injective fun worker => (self worker)._id)
    (named : ∀ worker, (self worker)._id ≠ []) (part : Part) :
    Claimed config self (serve throws (.redis config.cacheService (.get config.BCLock)) shared).2
      (Function.update phases worker (some ((self worker)._id, afterRead (self worker)._id part
        (serve throws (.redis config.cacheService (.get config.BCLock)) shared).1)))
      (history ++ [.executed worker boot before (.redis config.cacheService (.get config.BCLock))
        (serve throws (.redis config.cacheService (.get config.BCLock)) shared).1]) := by
  apply claimed_get config self throws shared phases history worker boot before _ claimed
  intro into arrives
  rw [afterRead] at arrives
  split at arrives
  · next mine =>
      exact read_unclaimed config self throws shared phases history worker claimed distinct named
        mine
  · cases arrives

theorem claimed_step (distinct : Function.Injective fun worker => (self worker)._id)
    (named : ∀ worker, (self worker)._id ≠ []) (command : Effect)
    (found : phases worker = some ((self worker)._id, stage))
    (allowed : ChainAllowed config (self worker)._id stage command)
    (free : ∀ value duration,
      command = .redis config.cacheService (.set config.BCLock value duration .nx) →
      chainRecord config shared = none → ∀ other, other ≠ worker → ∀ id part,
        phases other ≠ some (id, .deleting part))
    (unpaid : ∀ key increment, command = .redis config.cacheService (.incrBy key increment) →
      key ≠ config.BCLock) :
    Claimed config self (serve throws command shared).2
      (Function.update phases worker (some ((self worker)._id,
        nextChainStage config (self worker)._id stage command (serve throws command shared).1)))
      (history ++ [.executed worker boot before command (serve throws command shared).1]) := by
  have taking : ∀ key, command = .redis config.cacheService (.set key (self worker)._id 0 .nx) →
      key = config.BCLock → chainRecord config shared = none → ∀ other, other ≠ worker →
        ∀ id part, phases other ≠ some (id, .deleting part) := by
    rintro key rfl rfl
    exact free _ _ rfl
  cases stage with
  | releasing part =>
      obtain rfl := allowed
      exact claimed_read config self throws shared phases history worker boot before claimed
        distinct named part
  | deleting part =>
      obtain rfl := allowed
      exact claimed_delete config self throws shared phases history worker boot before _ claimed
        (claimed.deleting worker _ part found) (doing_proper part)
  | doing part =>
      cases part with
      | acquiring =>
          obtain rfl := allowed
          apply claimed_setNX config self throws shared phases history worker boot before _ claimed
          · exact taking _ rfl
          · intro part
            simp only [nextChainStage]
            split
            · exact synchronise_proper config part
            · exact doing_proper .acquiring part
      | syncing =>
          obtain rfl := allowed
          apply claimed_get config self throws shared phases history worker boot before _ claimed
          exact fun part arrives => absurd arrives (release_proper config .balances part)
      | balances =>
          obtain rfl := allowed
          exact claimed_setNX config self throws shared phases history worker boot before _ claimed
            _ (taking _ rfl) (doing_proper .replaying)
      | replaying =>
          rcases allowed with ⟨key, rfl⟩ | ⟨key, increment, rfl⟩ | rfl
          · exact claimed_get config self throws shared phases history worker boot before _ claimed
              _ _ fun part arrives => absurd arrives (doing_proper .replaying part)
          · exact claimed_incrBy config self throws shared phases history worker boot before _
              claimed key increment (unpaid key increment rfl) (doing_proper .replaying)
          · apply claimed_setNX config self throws shared phases history worker boot before _
              claimed
            · exact taking _ rfl
            · intro part
              simp only [nextChainStage]
              split
              · exact doing_proper .loggingIn part
              · exact doing_proper .ended part
      | loggingIn =>
          rcases allowed with ⟨ipport, uri, body, rfl⟩ | rfl
          · apply claimed_send config self throws shared phases history worker boot before _ claimed
            intro part
            simp only [nextChainStage]
            split
            · exact doing_proper .ended part
            · exact release_proper config .ended part
          · exact claimed_read config self throws shared phases history worker boot before claimed
              distinct named .ended
      | ended => exact allowed.elim

end Steps

theorem claimed_keeps (throws : Nat → Bytes → Bool)
    (distinct : Function.Injective fun worker => (self worker)._id)
    (named : ∀ worker, (self worker)._id ≠ []) :
    (chaining config self).Keeps (sending throws) (fun _ (_ : Started) => True)
      (Unguarded config self) fun shared phases history =>
        Claimed config self shared.1 phases history where
  begins := by
    intro pool worker boot idle _ claimed
    constructor
    · exact claimed.recorded
    · intro other phase lookup
      rcases update_cases _ worker other _ _ lookup with ⟨rfl, arrived⟩ | ⟨-, was⟩
      · rw [← Option.some.inj arrived]
        rfl
      · exact claimed.named other phase was
    · intro other id part lookup
      rcases update_cases _ worker other _ _ lookup with ⟨rfl, arrived⟩ | ⟨-, was⟩
      · -- A call begins with its first `releaseLock`, or behind it.
        exact (release_proper config _ part (congrArg Prod.snd (Option.some.inj arrived))).elim
      · exact claimed.deleting other id part was
  issues := by
    intro pool worker call command next running rest allowed unguarded claimed
    obtain ⟨free, unpaid⟩ := unguarded command (nextCommand_eq pool worker call command next running
      rest)
    have found := (chaining config self).phases_running pool worker call running
    have id := claimed.named worker _ found
    have step := claimed_step config self (throws pool.shared.2) pool.shared.1 _ pool.history worker
      call.job call.done ((chaining config self).phaseOf worker call).2 claimed distinct named
      command (by rw [found, ← id]) (by rw [← id]; exact allowed) free unpaid
    rw [← id] at step
    exact step
  returns := by
    intro shared phases history worker boot phase result _ _ claimed
    have same : ∀ other, holdsChainLock config self (history ++ [.returned worker boot result])
        other = holdsChainLock config self history other := by
      intro other
      simp [holdsChainLock]
    constructor
    · simpa only [same] using claimed.recorded
    · intro other phase lookup
      rcases update_cases phases worker other _ _ lookup with ⟨-, arrived⟩ | ⟨-, was⟩
      · cases arrived
      · exact claimed.named other phase was
    · intro other id part lookup
      rcases update_cases phases worker other _ _ lookup with ⟨-, arrived⟩ | ⟨-, was⟩
      · cases arrived
      · simpa only [same] using claimed.deleting other id part was

/-- In every run of nodes with ids of their own in which no `SET NX` on the lock
is granted between the `GET` and the `DEL` of another worker's `releaseLock`, at
most one worker holds the lock. -/
theorem chain_lock_exclusive (cereal : Cereal) (throws : Nat → Bytes → Bool)
    (distinct : Function.Injective fun worker => (self worker)._id)
    (named : ∀ worker, (self worker)._id ≠ []) (start : Servers)
    (schedule : List (Choice Worker Boot))
    (respects : Along (sending throws) (starters config cereal self) (Respects config)
      (idle (start, 0)) schedule) :
    let pool := runPool (sending throws) (starters config cereal self) (idle (start, 0)) schedule
    ∀ first second, holdsChainLock config self pool.history first = true →
      holdsChainLock config self pool.history second = true → first = second := by
  intro pool first second one two
  have unguarded := Discipline.along_tracked (init_goes config cereal self)
    (respects_unguarded config self) (idle (start, 0)) schedule respects
    (Discipline.idle_tracked (start, 0))
  have before : Claimed config self start
      ((chaining config self).phases
        (idle (start, 0) : Pool Worker Boot Effect Answer Started (Servers × Nat))) [] := by
    rw [Discipline.idle_phases]
    constructor
    · simp [holdsChainLock]
    · intro worker phase lookup
      cases lookup
    · intro worker id part lookup
      cases lookup
  obtain ⟨-, claimed⟩ := Discipline.run_keeps (claimed_keeps config self throws distinct named)
    (fun _ worker boot _ => init_goes config cereal self worker boot) (idle (start, 0)) schedule
    unguarded (Discipline.idle_tracked (start, 0)) before
  have same := (claimed.recorded first one).symm.trans (claimed.recorded second two)
  exact distinct (Value.string.inj (Option.some.inj same))

end Runs

/-- Two miners, with the ids 1 and 2. -/
def miners (worker : Bool) : FPService :=
  ⟨if worker then ascii "2" else ascii "1", [], [], .none, [], false⟩

def minerBoot : Boot := ⟨ascii "127.0.0.1:9191", true, .miner, true, fun _ => ⟨0, 0⟩, 1, 2⟩

/-- The first miner looks at the lock before the second one takes it, and has
deleted it by then; it takes the lock when the second one has given it back. -/
def oneAfterAnother : List (Choice Bool Boot) :=
  [.start true minerBoot, .start false minerBoot, .advance true, .advance false, .advance false] ++
    List.replicate 5 (.advance true) ++ [.advance false]

theorem chain_lock_exclusive_miners :
    let pool := runPool (sending fun _ _ => false)
      (starters minerServerConf CerealJson.cerealJson miners) (idle (fun _ => ∅, 0)) oneAfterAnother
    holdsChainLock minerServerConf miners pool.history false = true ∧
      ∀ first second, holdsChainLock minerServerConf miners pool.history first = true →
        holdsChainLock minerServerConf miners pool.history second = true → first = second :=
  ⟨by decide +kernel, chain_lock_exclusive minerServerConf miners CerealJson.cerealJson
    (fun _ _ => false) (by decide) (by decide) (fun _ => ∅) oneAfterAnother (by decide +kernel)⟩

/-- Both miners find no lock. The second one deletes nothing and takes it; then
the first one deletes it and takes it too. -/
def crossedRelease : List (Choice Bool Boot) :=
  [.start false minerBoot, .start true minerBoot, .advance false, .advance true, .advance true,
    .advance true, .advance false, .advance false]

theorem crossed_release_both_hold :
    holdsChainLock minerServerConf miners (runPool (sending fun _ _ => false)
      (starters minerServerConf CerealJson.cerealJson miners) (idle (fun _ => ∅, 0))
      crossedRelease).history false = true ∧
    holdsChainLock minerServerConf miners (runPool (sending fun _ _ => false)
      (starters minerServerConf CerealJson.cerealJson miners) (idle (fun _ => ∅, 0))
      crossedRelease).history true = true := by
  constructor <;> decide +kernel

end FPayNode.ChainLock
