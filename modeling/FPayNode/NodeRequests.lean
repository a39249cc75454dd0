import FPayNode.BlockSync
import FPayNode.ChildNodes
import FPayNode.RequestDispatch
import FPayNode.SenderFrames

/-!
`server/FPReqHandler.cpp`: the form map of a node and its handlers, each a
program that ends in what it answers. A request comes as the payload of a
frame; the answer goes to the connection the request came on. What cereal makes
of a payload is given by the conversions of the record, which a form handler
reads into a new object.
-/

namespace FPayNode.NodeRequests

open CommandProgram DecimalText ByteStream RedisServer RedisCache Messages NodeService ChildNodes
open BlockSync JsonFrames RequestDispatch SenderFrames

structure QueryBalance where
  _address : Bytes
  deriving DecidableEq

structure BlockSyncRequest where
  _address : Bytes
  _lastBlockId : Bytes
  _timestamp : UInt64
  deriving DecidableEq

structure BlockSyncResponse where
  _address : Bytes
  _blockList : List Block
  deriving DecidableEq

def QueryBalance.fresh : QueryBalance := ⟨[]⟩

def BlockSyncRequest.fresh (memory : Uninitialized) : BlockSyncRequest :=
  ⟨[], [], memory.timestamp⟩

def BlockSyncResponse.fresh : BlockSyncResponse := ⟨[], []⟩

def QueryBalance.uri : UInt8 := 1

def Response.uri : UInt8 := 6

def BlockSyncRequest.uri : UInt8 := 7

def BlockSyncResponse.uri : UInt8 := 8

/-- The conversions of every record that is sent between nodes. -/
structure Forms extends Cereal where
  query : Codec QueryBalance
  response : Codec Response
  syncRequest : Codec BlockSyncRequest
  syncResponse : Codec BlockSyncResponse

/-- What the form map has an entry for. -/
inductive Request where
  | query (req : QueryBalance)
  | node (req : NodeInfo)
  | transaction (req : Transaction)
  | block (req : Block)
  | syncRequest (req : BlockSyncRequest)
  | syncResponse (req : BlockSyncResponse)
  deriving DecidableEq

/-- What a handler answers with. -/
inductive Reply where
  | response (rsp : Response)
  | blocks (rsp : BlockSyncResponse)
  deriving DecidableEq

def Reply.uri : Reply → UInt8
  | .response _ => Response.uri
  | .blocks _ => BlockSyncResponse.uri

/-! The handlers. -/

section Service
variable (config : Config) (forms : Forms) (self : FPService)

def queryBalanceString (userId value : Bytes) : Calls (Bool × Bytes) :=
  get config.cacheService userId value

/-- Returns at once; the statements behind the return are never reached. -/
def recieveBlock (_ : Block) : Calls Unit := pure ()

def handleBlockArrived (block : Block) : Calls Bool :=
  if self._nodeRole ≠ .miner then pure false
  else do
    recieveBlock block
    pure true

def onQueryBalance (req : QueryBalance) : Calls Response := do
  let rsp := { Response.fresh with _status := -1 }
  let (found, balance) ← queryBalanceString config req._address []
  -- An account without a record is answered with an empty balance.
  if found then pure { rsp with _status := 0, _desc := ascii "balance = " ++ balance }
  else pure rsp

def onTransaction (req : Transaction) : Calls (Except Thrown Response) := do
  let rsp := Response.fresh
  match ← handleTransaction config forms.toCereal self req with
  | .error thrown => pure (.error thrown)
  | .ok handled => pure (.ok (if handled then rsp else { rsp with _status := -1 }))

/-- A block that was refused is answered like any other. -/
def onBlockArrived (req : Block) : Calls Response := do
  let rsp := Response.fresh
  if ← handleBlockArrived self req then pure { rsp with _status := 0 } else pure rsp

/-- None while the walk along the chain has blocks left. -/
def onBlockSyncRequest (memory : Nat → Uninitialized) (reads : Nat) (req : BlockSyncRequest) :
    Calls (Option BlockSyncResponse) := do
  let found ← queryBlockChain config forms.toCereal memory reads req._lastBlockId
    BlockSyncResponse.fresh._blockList
  pure (found.map fun answer => ⟨self._address, answer.2⟩)

/-- The loop over the blocks of an answer, up to the first one that is refused. -/
def arriveAll : List Block → Calls Bool
  | [] => pure true
  | block :: rest => do
      if ← handleBlockArrived self block then arriveAll rest else pure false

def onBlockSyncResponse (req : BlockSyncResponse) : Calls Response := do
  let rsp := Response.fresh
  if ← arriveAll self req._blockList then pure rsp else pure { rsp with _status := -1 }

/-- How a handler is left: none when it is still in its loop. -/
abbrev Outcome := Option (Except Thrown Reply)

/-- The function that the form map names for a request. -/
def handle (memory : Nat → Uninitialized) (reads : Nat) : Request → Calls Outcome
  | .query req => do
      let rsp ← onQueryBalance config req
      pure (some (.ok (.response rsp)))
  | .node req => do
      let rsp ← onNodeAction config forms.toCereal req
      pure (some (.ok (.response rsp)))
  | .transaction req => do
      let rsp ← onTransaction config forms self req
      pure (some (rsp.map .response))
  | .block req => do
      let rsp ← onBlockArrived self req
      pure (some (.ok (.response rsp)))
  | .syncRequest req => do
      let rsp ← onBlockSyncRequest config forms self memory reads req
      pure (rsp.map fun blocks => .ok (.blocks blocks))
  | .syncResponse req => do
      let rsp ← onBlockSyncResponse self req
      pure (some (.ok (.response rsp)))

end Service

/-! The form map. -/

section Forms
variable (forms : Forms)

/-- What `CerealMsgHandle` makes of a payload; none when cereal throws. -/
def load {Message : Type} (codec : Codec Message) (fresh : Message) (up : Bytes) :
    Option Message :=
  if (codec.fromString up fresh).1 then some (codec.fromString up fresh).2 else none

/-- How the payload of a registered uri is read; none for any other uri. -/
def formHandle (memory : Uninitialized) (uri : UInt8) : Option (Bytes → Option Request) :=
  if uri = QueryBalance.uri then
    some fun up => (load forms.query QueryBalance.fresh up).map .query
  else if uri = Transaction.uri then
    some fun up => (load forms.transaction (Transaction.fresh memory) up).map .transaction
  else if uri = Block.uri then
    some fun up => (load forms.block (Block.fresh memory) up).map .block
  else if uri = NodeInfo.uri then
    some fun up => (load forms.node NodeInfo.fresh up).map .node
  else if uri = BlockSyncRequest.uri then
    some fun up => (load forms.syncRequest (BlockSyncRequest.fresh memory) up).map .syncRequest
  else if uri = BlockSyncResponse.uri then
    some fun up => (load forms.syncResponse BlockSyncResponse.fresh up).map .syncResponse
  else none

def Reply.body : Reply → Bytes
  | .response rsp => forms.response.toString rsp
  | .blocks rsp => forms.syncResponse.toString rsp

/-- The bytes that `DirectWriter::answer` hands to the connection; none when the
body does not fit the sender's buffer, which throws. The sender is packed here
and again in `AbstractConn::send`. -/
def answer (stale : UInt64) (reply : Reply) : Option Bytes := do
  let sender ← JsonSender.make stale reply.uri (reply.body forms)
  let packed ← JsonSender.endPacks 2 sender
  pure packed.sent

/-- An answer that the length word has room for goes out as one frame. -/
theorem answer_frame (stale : UInt64) (reply : Reply)
    (fits : (reply.body forms).length + 1 < 2 ^ 29) :
    answer forms stale reply = some (Message.frame ⟨reply.uri, reply.body forms, fits⟩) :=
  pack_frame ⟨⟨reply.uri, reply.body forms, fits⟩, stale, 1⟩

end Forms
end FPayNode.NodeRequests
