import FPayNode.BlockBuffers
import FPayNode.CommandProgram
import FPayNode.UnitStream

/-!
Requests on a connection: `core/base/Request.cpp`, `JsonRequest.cpp`,
`core/proto/JsonProtoConsumer.cpp` and `Connection::onRead`. A frame is four
bytes of session, four of length with a protocol tag in the top three bits, and
as many bytes as the length says. What handles a request is a parameter: it may
change the world, return a number or leave by an exception.
-/

namespace FPayNode.JsonFrames

open CommandProgram DecimalText ByteStream BlockBuffers UnitStream

inductive PROTO_T where
  | json | bin | http | xml | none | max
  deriving DecidableEq

def HEADER_SIZE : Nat := 9

def JSON_HEADER_SIZE : UInt32 := 8

def PROTO_MAGIC_SHIFT : UInt32 := 29

/-- Shifts the decimal number 111, whose three lowest bits are set. -/
def PROTO_MAGIC_MASK : UInt32 := ~~~((111 : UInt32) <<< PROTO_MAGIC_SHIFT)

def getProtoType (len : UInt32) : PROTO_T × UInt32 :=
  let top3Bit := len >>> PROTO_MAGIC_SHIFT
  (if top3Bit = 0 then .json else if top3Bit = 1 then .bin else if top3Bit = 2 then .http
    else .max,
    len &&& PROTO_MAGIC_MASK)

/-- What is in memory where a request is built. -/
structure Stale where
  sessionId : UInt32
  len : UInt64
  uri : UInt8
  deriving DecidableEq

structure JsonRequest where
  up : Bytes
  protoType : PROTO_T
  sessionId : UInt32
  len : UInt64
  uri : UInt8
  deriving DecidableEq

/-- The constructor sets neither the session nor the length nor the uri. -/
def JsonRequest.make (stale : Stale) (data : Bytes) (proto : PROTO_T) : JsonRequest :=
  ⟨data, proto, stale.sessionId, stale.len, stale.uri⟩

def popHeader (request : JsonRequest) : Except Exn JsonRequest :=
  match request.protoType with
  | .json | .bin => do
      let (sessionId, up) ← readUint32 request.up
      let (len, up) ← readUint32 up
      let (uri, up) ← readUint8 up
      pure { request with up := up, sessionId := sessionId, len := len.toUInt64, uri := uri }
  | _ => pure request

/-! `onData`. -/

inductive Verdict where
  | returned (ret : Int32)
  | threw (exn : Exn)
  deriving DecidableEq

/-- The surroundings of a consumer. `stale` is the memory that the next request
is built in. -/
structure Consumer (World : Type) where
  stale : World → Stale
  doRequest : World → JsonRequest → Verdict × World

/-- A frame that was processed, with the request that `doRequest` got; none when
`popHeader` threw. -/
structure Processed where
  frame : Bytes
  request : Option JsonRequest
  deriving DecidableEq

inductive Step where
  | goesOn
  | minusOne
  | threw (exn : Exn)
  deriving DecidableEq

structure ForwardBuf where
  m_data : Bytes
  m_pos : Nat

namespace ForwardBuf

def data (fb : ForwardBuf) : Bytes := fb.m_data.drop fb.m_pos

def size (fb : ForwardBuf) : Nat := fb.m_data.length - fb.m_pos

def erase (fb : ForwardBuf) (n : Nat) : ForwardBuf := { fb with m_pos := fb.m_pos + n }

def empty (fb : ForwardBuf) : Bool := fb.m_data.length = fb.m_pos

end ForwardBuf

/-- The length word at offset 4. -/
def lengthWord (data : Bytes) : UInt32 :=
  XHTONL (loadUint32 (data.getD 4 0) (data.getD 5 0) (data.getD 6 0) (data.getD 7 0))

/-- How `onData` was left, `fb.offset()` at that point, and what it processed. -/
structure Handled (World : Type) where
  ended : Except Exn Int32
  offset : Nat
  world : World
  processed : List Processed

section Consume
variable {World : Type} (consumer : Consumer World)

/-- The body of the loop for a frame that is all there. -/
def processFrame (world : World) (frame : Bytes) (proto : PROTO_T) : Processed × Step × World :=
  match popHeader (JsonRequest.make (consumer.stale world) frame proto) with
  | .error exn => (⟨frame, none⟩, .threw exn, world)
  | .ok request =>
      match consumer.doRequest world request with
      | (.threw exn, after) => (⟨frame, some request⟩, .threw exn, after)
      | (.returned ret, after) =>
          (⟨frame, some request⟩, if ret = -1 then .minusOne else .goesOn, after)

/-- The loop of `onData`; every round erases a frame, so one round for each byte
and one more are enough. -/
def onDataLoop : Nat → World → ForwardBuf → Handled World
  | 0, world, fb => ⟨.ok (Int32.ofNat fb.m_pos), fb.m_pos, world, []⟩
  | fuel + 1, world, fb =>
      let (proto, bodyLen) := getProtoType (lengthWord fb.data)
      let realLen := bodyLen + JSON_HEADER_SIZE
      if fb.empty || fb.size < JSON_HEADER_SIZE.toNat || fb.size < realLen.toNat then
        ⟨.ok (Int32.ofNat fb.m_pos), fb.m_pos, world, []⟩
      else
        match processFrame consumer world (fb.data.take realLen.toNat) proto with
        | (processed, .threw exn, after) => ⟨.error exn, fb.m_pos, after, [processed]⟩
        | (processed, .minusOne, after) => ⟨.ok (-1), fb.m_pos, after, [processed]⟩
        | (processed, .goesOn, after) =>
            let rest := onDataLoop fuel after (fb.erase realLen.toNat)
            { rest with processed := processed :: rest.processed }

def onData (world : World) (buf : Bytes) : Handled World :=
  onDataLoop consumer (buf.length + 1) world ⟨buf, 0⟩

end Consume

/-! `Connection::onRead`. -/

abbrev InputBuffer := BlockBuffer 8192 (128 * 8)

/-- The connection is open until its manager erases it; `processed` is what its
requests were, in order. -/
structure Connection (World : Type) where
  _input : InputBuffer
  isOpen : Bool
  world : World
  processed : List Processed

def Connection.fresh {World : Type} (world : World) : Connection World :=
  ⟨BlockBuffer.fresh, true, world, []⟩

section Read
variable {World : Type} (consumer : Consumer World)

/-- The `int` that `onData` returns, as the `size_t` that `erase` takes. -/
def toSize (ret : Int32) : Nat := (ret.toInt % 2 ^ 64).toNat

/-- One read event. `recv` is what the socket delivers; the manager answers to
`onClose`, `onInitiativeClose` and `onError` alike, by erasing the connection. -/
def onRead (conn : Connection World) (recv : Bytes) : Connection World :=
  if conn.isOpen = false then conn
  else
    match conn._input.pump recv with
    | none => { conn with isOpen := false }
    | some input =>
        let handled := onData consumer conn.world input.content
        let after : Connection World :=
          { _input := input, isOpen := true, world := handled.world,
            processed := conn.processed ++ handled.processed }
        match handled.ended with
        | .ok ret =>
            if ret ≠ -1 then { after with _input := input.erase (toSize ret) }
            else { after with isOpen := false }
        | .error (.socketExn errno _) =>
            if errno = EAGAIN || errno = EINTR then after else { after with isOpen := false }
        | .error _ => { after with isOpen := false }

end Read
end FPayNode.JsonFrames
