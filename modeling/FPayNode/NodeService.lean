import FPayNode.Messages
import FPayNode.RedisCache

/-!
`server/FPService.cpp`: the operations of a node as programs over the cache
and block services. A call that leaves by an exception ends in `.error`. Log
lines are left out, and with them tests whose only effect is a log line.
-/

namespace FPayNode.NodeService

open CommandProgram DecimalText RedisServer RedisCache Messages

inductive NodeRole where
  | none | root | miner
  deriving DecidableEq

structure FPService where
  _id : Bytes
  _address : Bytes
  _hostport : Bytes
  _nodeRole : NodeRole
  _parentNode : Bytes
  _routeTarget : Bool

/-- What leaves a call of `sendTo`, which nothing on the way catches or tells
apart: the exception of the port conversion, or of the first send on a new
connection. -/
inductive Thrown where
  | sendTo
  deriving DecidableEq

/-- What a call reads from outside the services: `clock()`, `time(NULL)` and
the memory its local objects are built in. -/
structure Moment where
  clock : UInt64
  seconds : Nat
  memory : Nat → Uninitialized

def builderLock : Bytes := ascii "_BLOCK_BUILDER_LOCK_"

def initBalanceLocker : Bytes := ascii "_INIT_BALANCE_LOCKER"

/-- The keys of the cache and block services that are not accounts. -/
def controlKeys (config : Config) : List Bytes :=
  [config.BCLock, builderLock, initBalanceLocker, config.childNodesKey, config.txPoolKey,
    config.lastBlockKey, config.initBlockId]

/-- A root node as `FPReqHandler` sets it up from `conf/root_server.conf`. -/
def rootService : FPService := ⟨ascii "1", [], ascii "127.0.0.1:9090", .root, [], true⟩

section Service
variable (config : Config) (cereal : Cereal) (self : FPService)

def tryLock (lock : Bytes) : Calls Bool := setNX config.cacheService lock self._id

def releaseLock (lock : Bytes) : Calls Unit := do
  let (_, id) ← get config.cacheService lock []
  -- An empty id is a lock that is gone, or a read that failed.
  if id.isEmpty || id = self._id then
    let _ ← delete config.cacheService lock
    pure ()
  else pure ()

def getBlock (blockId : Bytes) (block : Block) : Calls (Bool × Block) := do
  let (_, blockJSONStr) ← get config.dbService blockId []
  pure (cereal.block.fromString blockJSONStr block)

def getLastBlock (block : Block) : Calls (Bool × Block) :=
  getBlock config cereal config.lastBlockKey block

def storeBlock (block : Block) : Calls Bool :=
  if (cereal.block.toString block).isEmpty then pure false
  else set config.dbService block._id (cereal.block.toString block) (-1)

/-! Balances. -/

/-- `map[key] += increment` on a `std::map`, kept in the order of its keys. -/
def increase (key : Bytes) (increment : Int64) : List (Bytes × Int64) → List (Bytes × Int64)
  | [] => [(key, increment)]
  | (other, sum) :: rest =>
      if key = other then (other, sum + increment) :: rest
      else if key < other then (key, increment) :: (other, sum) :: rest
      else (other, sum) :: increase key increment rest

def balanceMap (txList : List Transaction) : List (Bytes × Int64) :=
  txList.foldl (fun map tx =>
    increase tx._to tx._value (increase tx._from (-tx._value) map)) []

def applyAll : List (Bytes × Int64) → Calls Unit
  | [] => pure ()
  | pair :: rest => do
      let _ ← incrBy config.cacheService pair.1 pair.2 0
      applyAll rest

/-- Declared to return a flag, but returns none. -/
def updateBalance (block : Block) : Calls Unit :=
  applyAll config (balanceMap block._txList)

def queryBalance (userId : Bytes) (value : Int64) : Calls (Bool × Int64) := do
  let (found, val) ← get config.cacheService userId []
  if found then pure (true, Int64.ofInt (atoll val)) else pure (false, value)

def forward (tx : Transaction) : Calls (Except Thrown Bool) :=
  if !self._routeTarget || self._parentNode.isEmpty then pure (.ok false)
  else do
    match ← Program.perform
        (.sendTo self._parentNode Transaction.uri (cereal.transaction.toString tx)) with
    | .threw => pure (.error .sendTo)
    | _ => pure (.ok true)

def handleTransaction (tx : Transaction) : Calls (Except Thrown Bool) := do
  let (found, balance) ← queryBalance config tx._from 0
  -- An account without a record is found, with balance zero.
  if !found then return .ok false
  match self._nodeRole with
  | .miner => forward cereal self tx
  | .root =>
      if balance ≥ tx._value then
        -- Neither answer is looked at.
        let _ ← incrBy config.cacheService tx._from (-tx._value) 0
        let _ ← incrBy config.cacheService tx._to tx._value 0
      -- A rejected transaction is appended to the pool like an accepted one.
      let json := cereal.transaction.toString tx
      if json.isEmpty then return .ok false
      let _ ← enQueue config.cacheService config.txPoolKey json
      return .ok true
  | .none => return .ok true

/-- A child node is stored as it came. -/
def handleLogin (nodeInfo : NodeInfo) : Calls Bool :=
  if (cereal.node.toString nodeInfo).isEmpty then pure false
  else addToSet config.cacheService config.childNodesKey (cereal.node.toString nodeInfo)

/-! Blocks. -/

/-- The letter for one value of `rand()`. -/
def randChar (x : Nat) : UInt8 :=
  if x % 3 = 0 then UInt8.ofNat (65 + x % 26)
  else if x % 3 = 1 then UInt8.ofNat (97 + x % 26)
  else UInt8.ofNat (48 + x % 10)

/-- `rand seed i` is the `i`-th value after `srand(seed)`. -/
def getRandStr (rand : UInt32 → Nat → Nat) (seconds : Nat) (len : Nat) : Bytes :=
  (List.range (len - 1)).map fun i => randChar (rand (UInt32.ofNat seconds) i)

def genBlockId (rand : UInt32 → Nat → Nat) (seconds : Nat) : Bytes :=
  getRandStr rand seconds 64

/-- The loop of `createBlock`: what does not load is kept as it was built. -/
def loadAll (memory : Nat → Uninitialized) (txList : List Bytes) : List Transaction :=
  txList.mapIdx fun i txStr =>
    (cereal.transaction.fromString txStr (Transaction.fresh (memory i))).2

variable (rand : UInt32 → Nat → Nat)

def createBlock (moment : Moment) (block : Block) : Calls (Bool × Block) := do
  let (_, lastBlock) ←
    getBlock config cereal config.lastBlockKey (Block.fresh (moment.memory 1))
  let block := { block with _timestamp := moment.clock }
  let (drained, txList) ← deQueueAll config.cacheService config.txPoolKey []
  if !drained then return (false, block)
  if txList.isEmpty then return (false, block)
  let block :=
    { block with
      _id := genBlockId rand moment.seconds
      _prev := lastBlock._id
      _txList := block._txList ++ loadAll cereal (fun i => moment.memory (i + 2)) txList }
  -- Nothing is written under `lastBlockKey`.
  let lastBlock := { lastBlock with _next := block._id }
  let _ ← storeBlock config cereal block
  let _ ← storeBlock config cereal lastBlock
  return (true, block)

def sendAll (block : Block) : List Bytes → Calls (Except Thrown Bool)
  | [] => pure (.ok true)
  | nodeStr :: rest =>
      match cereal.node.fromString nodeStr NodeInfo.fresh with
      -- A child that does not load is skipped.
      | (false, _) => sendAll block rest
      | (true, nodeInfo) => do
          match ← Program.perform
              (.sendTo nodeInfo._hostport Block.uri (cereal.block.toString block)) with
          | .threw => pure (.error .sendTo)
          | _ => sendAll block rest

def broadcast (block : Block) : Calls (Except Thrown Bool) := do
  let (found, childNodes) ← getMembers config.cacheService config.childNodesKey []
  if !found || childNodes.isEmpty then pure (.ok false)
  else sendAll cereal block childNodes

def generateNewBlock (moment : Moment) : Calls (Except Thrown Unit) := do
  if self._nodeRole ≠ .root then return .ok ()
  let locked ← tryLock config self builderLock
  if !locked then return .ok ()
  let (created, block) ← createBlock config cereal rand moment (Block.fresh (moment.memory 0))
  if created then
    -- An exception of the broadcast leaves the lock behind.
    match ← broadcast config cereal block with
    | .error thrown => return .error thrown
    | .ok _ => releaseLock config self builderLock
  else
    releaseLock config self builderLock
  return .ok ()

end Service
end FPayNode.NodeService
