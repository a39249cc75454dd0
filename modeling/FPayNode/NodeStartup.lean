import FPayNode.BlockCreation
import FPayNode.CerealJson
import FPayNode.WorkerPool

/-!
`FPService::init`: a node takes its settings, gives back the lock of the block
chain, brings the chain up to date under it if it is a miner, replays the blocks
into the balances if it is the first, and logs in to its parent. Two loops have
no bound of their own, the wait for the lock and the walk along the chain; a
call that comes to the end of its rounds is one that is still going on.
-/

namespace FPayNode.NodeStartup

open CommandProgram WorkerPool DecimalText RedisServer RedisCache Messages NodeService
open BlockCreation (getBlock_issues)

/-- What `init` is called with and reads from outside the services: the role in
the settings, whether both storages could be opened, the memory of its blocks,
and the rounds of the two loops. -/
structure Boot where
  hostPort : Bytes
  routeTarget : Bool
  nodeRole : NodeRole
  storage : Bool
  memory : Nat → Uninitialized
  spins : Nat
  reads : Nat

/-- None for a call that is still going on. -/
abbrev Started := Option (Except Thrown Bool)

section Init
variable (config : Config) (cereal : Cereal)

/-- False when it still waits. -/
def acquireLock (self : FPService) (lock : Bytes) : Nat → Calls Bool
  | 0 => pure false
  | spins + 1 => do
      if ← setNX config.cacheService lock self._id then pure true
      else acquireLock self lock spins

/-- The update of the chain is compiled out. -/
def syncBlockChain (memory : Uninitialized) : Calls Bool := do
  let _ ← getLastBlock config cereal (Block.fresh memory)
  pure true

/-- None when there are blocks left. -/
def initBalance (memory : Nat → Uninitialized) : Nat → Bytes → Calls (Option Bool)
  | 0, _ => pure none
  | reads + 1, blockId =>
      if blockId.isEmpty then pure (some true)
      else do
        let (found, block) ← getBlock config cereal blockId (Block.fresh (memory reads))
        if !found then pure (some false)
        else do
          updateBalance config block
          initBalance memory reads block._next

def login (self : FPService) : Calls (Except Thrown Bool) :=
  if self._parentNode.isEmpty || self._hostport.isEmpty then pure (.ok false)
  else do
    match ← Program.perform (.sendTo self._parentNode NodeInfo.uri (cereal.node.toString
        { NodeInfo.fresh with _address := self._address, _hostport := self._hostport })) with
    | .threw => pure (.error .sendTo)
    | _ => pure (.ok true)

/-- The last part of `init`. -/
def initLogin (self : FPService) : Calls Started :=
  if self._nodeRole = .miner then do
    if ← tryLock config self config.BCLock then
      match ← login cereal self with
      -- The exception leaves the lock behind.
      | .error thrown => pure (some (.error thrown))
      | .ok loginSuccess => do
          releaseLock config self config.BCLock
          pure (some (.ok loginSuccess))
    else pure (some (.ok true))
  else pure (some (.ok true))

/-- A node that finds the locker taken goes on at once. The locker is never
given back. -/
def initBalances (self : FPService) (boot : Boot) : Calls Started := do
  if ← tryLock config self initBalanceLocker then
    match ← initBalance config cereal boot.memory boot.reads config.initBlockId with
    | none => pure none
    | some _ => initLogin config cereal self
  else initLogin config cereal self

def initSync (self : FPService) (boot : Boot) : Calls Started :=
  if self._nodeRole = .miner then do
    if ← acquireLock config self config.BCLock boot.spins then
      let blockSync ← syncBlockChain config cereal (boot.memory boot.reads)
      releaseLock config self config.BCLock
      if !blockSync then pure (some (.ok false)) else initBalances config cereal self boot
    else pure none
  else initBalances config cereal self boot

def init (self : FPService) (boot : Boot) : Calls Started :=
  if boot.nodeRole ≠ .miner ∧ boot.nodeRole ≠ .root then pure (some (.ok false))
  else if !boot.storage then pure (some (.ok false))
  else do
    let self :=
      { self with
        _hostport := boot.hostPort
        _routeTarget := boot.routeTarget
        _parentNode := config.parentNode
        _nodeRole := boot.nodeRole }
    -- A node that holds nothing yet also deletes a lock that it read as empty.
    releaseLock config self config.BCLock
    initSync config cereal self boot

end Init

/-! What the replay of the balances issues. -/

section Issues
variable (config : Config) (cereal : Cereal) (holds : Effect → Prop)

theorem applyAll_issues (pairs : List (Bytes × Int64))
    (added : ∀ key increment, holds (.redis config.cacheService (.incrBy key increment))) :
    (applyAll config pairs).Issues holds := by
  induction pairs with
  | nil => exact trivial
  | cons pair pairs ih =>
      exact Program.issues_bind holds _ _ (incrBy_issues holds _ _ _ _ (added _ _)) fun _ => ih

theorem initBalance_issues (memory : Nat → Uninitialized) (reads : Nat) (blockId : Bytes)
    (read : ∀ key, holds (.redis config.dbService (.get key)))
    (added : ∀ key increment, holds (.redis config.cacheService (.incrBy key increment))) :
    (initBalance config cereal memory reads blockId).Issues holds := by
  induction reads generalizing blockId with
  | zero => exact trivial
  | succ reads ih =>
      rw [initBalance]
      split
      · exact trivial
      · refine Program.issues_bind _ _ _ (getBlock_issues config cereal holds _ _ (read _)) ?_
        rintro ⟨found, block⟩
        dsimp only
        split
        · exact trivial
        · exact Program.issues_bind _ _ _ (applyAll_issues config holds _ added) fun _ => ih _

end Issues

/-! Workers that start up side by side. -/

section Runs
variable {Worker : Type} (config : Config) (cereal : Cereal) (self : Worker → FPService)

def starters (worker : Worker) (boot : Boot) : Calls Started := init config cereal (self worker) boot

abbrev StartEvent (Worker : Type) := Event Worker Boot Effect Answer Started

end Runs
end FPayNode.NodeStartup
