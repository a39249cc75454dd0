import FPayNode.DecimalText

/-!
The records of `server/FPProto.h`, the settings of `server/Config.h`, and the
conversions `toString` and `fromString` of `JsonMarshallable.h`. The
conversions belong to the serialization library and are a parameter: what the
node relies on is listed in `Codec.Lawful`. Members without an initializer
hold what was in memory.
-/

namespace FPayNode.Messages

open DecimalText

structure NodeInfo where
  _address : Bytes
  _hostport : Bytes
  _timestamp : UInt64
  _action : UInt32
  deriving DecidableEq

structure Transaction where
  _id : Bytes
  _from : Bytes
  _to : Bytes
  _value : Int64
  _timestamp : UInt64
  deriving DecidableEq

structure Block where
  _id : Bytes
  _prev : Bytes
  _next : Bytes
  _timestamp : UInt64
  _txList : List Transaction
  deriving DecidableEq

structure Uninitialized where
  value : Int64
  timestamp : UInt64

def NodeInfo.fresh : NodeInfo := ⟨[], [], 0, 0⟩

def Transaction.fresh (memory : Uninitialized) : Transaction :=
  ⟨[], [], [], memory.value, memory.timestamp⟩

def Block.fresh (memory : Uninitialized) : Block := ⟨[], [], [], memory.timestamp, []⟩

def NodeInfo.uri : UInt8 := 2

def Transaction.uri : UInt8 := 4

def Block.uri : UInt8 := 5

/-- `fromString` takes the object it loads into; a failed load may leave it
partly filled. -/
structure Codec (Message : Type) where
  toString : Message → Bytes
  fromString : Bytes → Message → Bool × Message

structure Cereal where
  node : Codec NodeInfo
  transaction : Codec Transaction
  block : Codec Block

/-- Strings are loaded as C strings, so a zero byte does not survive. -/
def CString (text : Bytes) : Prop := 0 ∉ text

instance (text : Bytes) : Decidable (CString text) := inferInstanceAs (Decidable (¬ _))

def Transaction.Clean (tx : Transaction) : Prop :=
  CString tx._id ∧ CString tx._from ∧ CString tx._to

instance (tx : Transaction) : Decidable tx.Clean := inferInstanceAs (Decidable (_ ∧ _))

def Block.Clean (block : Block) : Prop :=
  CString block._id ∧ CString block._prev ∧ CString block._next ∧
    ∀ tx ∈ block._txList, tx.Clean

instance (block : Block) : Decidable block.Clean := inferInstanceAs (Decidable (_ ∧ _))

/-- What the node relies on: a written object is read back, whatever it is
read into; loaded strings are C strings; an empty text loads nothing; and a
text that loads is an object, never a bare number. -/
structure Codec.Lawful {Message : Type} (codec : Codec Message) (Clean : Message → Prop) :
    Prop where
  nonempty : ∀ message, codec.toString message ≠ []
  round : ∀ message old, Clean message →
    codec.fromString (codec.toString message) old = (true, message)
  loaded : ∀ text old, Clean old → Clean (codec.fromString text old).2
  nothing : ∀ old, codec.fromString [] old = (false, old)
  object : ∀ text old, (codec.fromString text old).1 = true → parseExact text = none

structure Cereal.Lawful (cereal : Cereal) : Prop where
  transaction : cereal.transaction.Lawful Transaction.Clean
  block : cereal.block.Lawful Block.Clean

theorem Transaction.fresh_clean (memory : Uninitialized) : (Transaction.fresh memory).Clean := by
  simp [Transaction.fresh, Transaction.Clean, CString]

theorem Block.fresh_clean (memory : Uninitialized) : (Block.fresh memory).Clean := by
  simp [Block.fresh, Block.Clean, CString]

/-- `dbService` and `cacheService` stand for the server named in the files
they point to. -/
structure Config where
  initBlockId : Bytes
  lastBlockKey : Bytes
  dbService : Bytes
  cacheService : Bytes
  txPoolKey : Bytes
  BCLock : Bytes
  childNodesKey : Bytes
  parentNode : Bytes

/-- `conf/root_server.conf`, with the one server of `conf/db.conf` and
`conf/cache.conf`. -/
def rootServerConf : Config where
  initBlockId := ascii "block00000000000000000000000000000000000000000000000000000000000"
  lastBlockKey := ascii "LAST_BLOCK"
  dbService := ascii "127.0.0.1:16379"
  cacheService := ascii "127.0.0.1:16379"
  txPoolKey := ascii "TX_POOL"
  BCLock := ascii "BCLOCK"
  childNodesKey := ascii "CHILD_NODE"
  parentNode := []

/-- `conf/miner_server.conf`. -/
def minerServerConf : Config :=
  { rootServerConf with
    txPoolKey := ascii "MINER_TX_POOL"
    BCLock := ascii "MINER_BCLOCK"
    parentNode := ascii "127.0.0.1:9090" }

end FPayNode.Messages
