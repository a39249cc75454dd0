import FPayNode.SenderObjects

/-!
The binary protocol: `Sender::endPack`, `Request::popHeader` and
`MsgProtoConsumer::onData`. The sender keeps nine bytes free and writes a header
of ten into them, under a length word without a tag; the consumer takes the tag
from the length word, and `popHeader` reads the header only under the binary
one.
-/

namespace FPayNode.MsgFrames

open DecimalText ByteStream BlockBuffers JsonFrames FrameDelivery SenderFrames SenderObjects

def replaceUint16 (pb : PackBuffer) (pos : Nat) (u16 : UInt16) : Option PackBuffer :=
  pb.replace pos (storeUint16 (XHTONS u16))

/-- `Sender::endPack`: the length is written twice, and at the end it counts
the nine bytes and what is behind them. -/
def endPack (sender : Sender) : Option Sender := do
  let pb ← replaceUint32 sender.pb 0 sender.len.toUInt32
  let pb ← replaceUint32 pb 4 sender.uri.toUInt32
  let pb ← replaceUint16 pb 8 sender.appId
  let packed := { sender with pb := pb }
  let pb ← replaceUint32 pb 0 (UInt64.ofNat HEADER_SIZE + packed.bodySize).toUInt32
  pure { sender with pb := pb }

/-- The bytes from `header()` on that `AbstractConn::send` sends. -/
def sent (sender : Sender) : Bytes :=
  (sender.pb.content.drop sender.hpk).take (HEADER_SIZE + sender.bodySize.toNat)

/-- A message of the base sender; the id of the application is in its memory. -/
def pack (memory : HeaderMemory) (uri : UInt8) (body : Bytes) : Option Bytes := do
  let object ← construct memory (.senderWith uri ⟨[body], false⟩)
  let packed ← endPack object.sender
  pure (sent packed)

structure Request where
  up : Bytes
  protoType : PROTO_T
  len : UInt64
  uri : UInt8
  appId : UInt16

def Request.make (memory : HeaderMemory) (data : Bytes) (proto : PROTO_T) : Request :=
  ⟨data, proto, memory.len, memory.uri, memory.appId⟩

def popHeader (request : Request) : Except Exn Request :=
  match request.protoType with
  | .bin => do
      let (len, up) ← readUint32 request.up
      let (uri, up) ← readUint32 up
      let (appId, up) ← readUint16 up
      pure { request with up := up, len := len.toUInt64, uri := uri.toUInt8, appId := appId }
  | _ => pure request

/-- `memory` is what a request is built in. -/
structure MsgConsumer (World : Type) where
  memory : World → HeaderMemory
  doRequest : World → Request → Verdict × World

/-- How `onData` was left, none while it is still running, with `fb.offset()`
and the requests it handed on. -/
structure MsgHandled where
  ended : Option (Except Exn Int32)
  offset : Nat
  requests : List Request

def peekUint32 (data : Bytes) : UInt32 :=
  XHTONL (loadUint32 (data.getD 0 0) (data.getD 1 0) (data.getD 2 0) (data.getD 3 0))

section Consume
variable {World : Type} (consumer : MsgConsumer World)

/-- A frame of length zero is erased by nothing, so that the loop need not end. -/
def onDataLoop : Nat → World → ForwardBuf → MsgHandled
  | 0, _, fb => ⟨none, fb.m_pos, []⟩
  | fuel + 1, world, fb =>
      let (proto, realLen) := getProtoType (peekUint32 fb.data)
      if fb.empty || fb.size < HEADER_SIZE || fb.size < realLen.toNat then
        ⟨some (.ok (Int32.ofNat fb.m_pos)), fb.m_pos, []⟩
      else
        match popHeader (Request.make (consumer.memory world) (fb.data.take realLen.toNat) proto) with
        | .error exn => ⟨some (.error exn), fb.m_pos, []⟩
        | .ok request =>
            match consumer.doRequest world request with
            | (.threw exn, _) => ⟨some (.error exn), fb.m_pos, [request]⟩
            | (.returned ret, after) =>
                if ret = -1 then ⟨some (.ok (-1)), fb.m_pos, [request]⟩
                else
                  let rest := onDataLoop fuel after (fb.erase realLen.toNat)
                  { rest with requests := request :: rest.requests }

/-- The message is built, and `onData` hands on one request with its uri, its
application and its body, and consumes all of it. -/
def Delivers (world : World) (memory : HeaderMemory) (uri : UInt8) (body : Bytes) : Prop :=
  ∃ frame, pack memory uri body = some frame ∧
    ∃ fuel request, (onDataLoop consumer fuel world ⟨frame, 0⟩).requests = [request] ∧
      request.uri = uri ∧ request.appId = memory.appId ∧ request.up = body ∧
      (onDataLoop consumer fuel world ⟨frame, 0⟩).ended =
        some (.ok (Int32.ofNat frame.length)) ∧
      (onDataLoop consumer fuel world ⟨frame, 0⟩).offset = frame.length

end Consume

/-! What is sent. -/

/-- The object of a message that the buffer takes. -/
theorem construct_single (memory : HeaderMemory) (uri : UInt8) (body : Bytes)
    (room : HEADER_SIZE + body.length ≤ 65536 * (16 * 1024)) :
    ∃ object, construct memory (.senderWith uri ⟨[body], false⟩) = some object ∧
      object.marshalled = body ∧ object.sender.hpk = 0 ∧ Laid object := by
  obtain ⟨sender, blank, hpk, laid⟩ := blank_some memory none
  have header : sender.pb.content.length = HEADER_SIZE := laid.size
  obtain ⟨pb, appended, -⟩ := sender.pb.append_some body (by
    rw [List.length_append, header]
    exact room)
  have made : construct memory (.senderWith uri ⟨[body], false⟩) =
      some ⟨{ sender with pb := pb, uri := uri }, body⟩ := by
    simp only [construct, Construction.sessionId, blank, Construction.marshalls, marshallEach,
      marshall, marshal, writePieces, appended, Option.bind_eq_bind, Option.bind_some,
      List.append_nil, List.nil_append, Bool.not_false, Bool.and_true, Option.getD_some]
  exact ⟨_, made, rfl, hpk, construct_laid memory _ _ made⟩

theorem construct_too_long (memory : HeaderMemory) (uri : UInt8) (body : Bytes)
    (long : ¬ HEADER_SIZE + body.length ≤ 65536 * (16 * 1024)) :
    construct memory (.senderWith uri ⟨[body], false⟩) = none := by
  obtain ⟨sender, blank, -, laid⟩ := blank_some memory none
  have header : sender.pb.content.length = HEADER_SIZE := laid.size
  have refused : sender.pb.append body = none := BlockMemory.append_too_long sender.pb body (by
    rw [List.length_append, header]
    exact long)
  simp only [construct, Construction.sessionId, blank, Construction.marshalls, marshallEach,
    marshall, marshal, writePieces, refused, Option.bind_eq_bind, Option.bind_some,
    Bool.false_and]

/-- All that the buffer holds is sent. -/
theorem sent_content (sender : Sender) (hpk : sender.hpk = 0) (pk : sender.pk = HEADER_SIZE)
    (header : HEADER_SIZE ≤ sender.pb.content.length) : sent sender = sender.pb.content := by
  rw [sent, bodySize_toNat sender pk header, hpk, List.drop_zero]
  exact List.take_of_length_le
    (show sender.pb.content.length ≤ _ by rw [BlockBuffer.size]; omega)

/-- One byte of the header does not fit in front of the body: it overwrites the
first byte of the body, or becomes the body. -/
theorem endPack_frame (object : Tracked) (laid : Laid object) (hpk : object.sender.hpk = 0)
    (room : HEADER_SIZE + object.marshalled.length ≤ 65536 * (16 * 1024)) :
    ∃ packed rest, endPack object.sender = some packed ∧
      sent packed = storeUint32 (XHTONL (UInt32.ofNat
        (HEADER_SIZE + max 1 object.marshalled.length))) ++ rest ∧
      (sent packed).length = HEADER_SIZE + max 1 object.marshalled.length := by
  have nine : HEADER_SIZE = 9 := rfl
  have size := laid.size
  obtain ⟨pb1, first, size1, -⟩ := replace_header object.sender.pb 0
    (storeUint32 (XHTONL object.sender.len.toUInt32)) (List.cons_ne_nil _ _) (by omega)
    (Nat.le_of_ble_eq_true rfl)
  obtain ⟨pb2, second, size2, -⟩ := replace_header pb1 4
    (storeUint32 (XHTONL object.sender.uri.toUInt32)) (List.cons_ne_nil _ _) (by omega)
    (Nat.le_of_ble_eq_true rfl)
  -- The application takes the bytes 8 and 9, of which the header has only one.
  obtain ⟨pb3, third, content3⟩ := BlockMemory.replace_within pb2 8
    (storeUint16 (XHTONS object.sender.appId)) (by omega) (Nat.le_of_ble_eq_true rfl)
  have two : (storeUint16 (XHTONS object.sender.appId)).length = 2 := rfl
  have size3 : pb3.content.length = HEADER_SIZE + max 1 object.marshalled.length := by
    rw [content3, List.length_append, List.length_append, List.length_take, List.length_drop, two]
    omega
  have whole : ({ object.sender with pb := pb3 } : Sender).bodySize.toNat =
      pb3.content.length - HEADER_SIZE :=
    bodySize_toNat { object.sender with pb := pb3 } laid.pk
      (show HEADER_SIZE ≤ pb3.content.length by omega)
  have length : (UInt64.ofNat HEADER_SIZE +
      ({ object.sender with pb := pb3 } : Sender).bodySize).toUInt32 =
        UInt32.ofNat (HEADER_SIZE + max 1 object.marshalled.length) := by
    have header : (UInt64.ofNat HEADER_SIZE).toNat = 9 := rfl
    apply UInt32.toNat_inj.mp
    rw [UInt64.toNat_toUInt32, UInt64.toNat_add, header, whole, size3, UInt32.toNat_ofNat']
    omega
  obtain ⟨pb4, fourth, content4⟩ := pb3.replace_some 0
    (storeUint32 (XHTONL (UInt32.ofNat (HEADER_SIZE + max 1 object.marshalled.length))))
    (List.cons_ne_nil _ _) (by rw [storeUint32_length]; omega)
  rw [storeUint32_length, List.take_zero, List.nil_append] at content4
  have size4 : pb4.content.length = HEADER_SIZE + max 1 object.marshalled.length := by
    rw [content4, List.length_append, storeUint32_length, List.length_drop]
    omega
  have all : sent { object.sender with pb := pb4 } = pb4.content :=
    sent_content { object.sender with pb := pb4 } hpk laid.pk
      (show HEADER_SIZE ≤ pb4.content.length by omega)
  refine ⟨{ object.sender with pb := pb4 }, pb3.content.drop 4, ?_, ?_, ?_⟩
  · simp only [endPack, replaceUint32, replaceUint16, first, second, third, length, fourth,
      Option.bind_eq_bind, Option.bind_some, Option.pure_def]
  · rw [all, content4]
  · rw [all, size4]

theorem pack_frame (memory : HeaderMemory) (uri : UInt8) (body : Bytes)
    (room : HEADER_SIZE + body.length ≤ 65536 * (16 * 1024)) :
    ∃ frame rest, pack memory uri body = some frame ∧
      frame = storeUint32 (XHTONL (UInt32.ofNat (HEADER_SIZE + max 1 body.length))) ++ rest ∧
      frame.length = HEADER_SIZE + max 1 body.length := by
  obtain ⟨object, made, marshalled, hpk, laid⟩ := construct_single memory uri body room
  rw [← marshalled] at room
  obtain ⟨packed, rest, done, content, length⟩ := endPack_frame object laid hpk room
  rw [marshalled] at content length
  refine ⟨sent packed, rest, ?_, content, length⟩
  simp only [pack, made, done, Option.bind_eq_bind, Option.bind_some, Option.pure_def]

theorem pack_too_long (memory : HeaderMemory) (uri : UInt8) (body : Bytes)
    (long : ¬ HEADER_SIZE + body.length ≤ 65536 * (16 * 1024)) :
    pack memory uri body = none := by
  simp only [pack, construct_too_long memory uri body long, Option.bind_eq_bind, Option.bind_none]

theorem peek_frame (len : UInt32) (rest : Bytes) :
    peekUint32 (storeUint32 (XHTONL len) ++ rest) = len := by
  obtain ⟨b0, b1, b2, b3, bytes, word⟩ := read_written len
  rw [bytes, ← word]
  rfl

/-! What arrives. -/

theorem popHeader_up (request popped : Request) (done : popHeader request = .ok popped) :
    popped.up.length ≤ request.up.length ∧
      (request.protoType ≠ .bin → popped.up = request.up) := by
  simp only [popHeader] at done
  split at done
  · next tagged =>
      refine ⟨?_, fun untagged => absurd tagged untagged⟩
      obtain ⟨⟨len, afterLen⟩, first, done⟩ := bind_ok _ _ _ done
      obtain ⟨⟨uri, afterUri⟩, second, done⟩ := bind_ok _ _ _ done
      obtain ⟨⟨appId, left⟩, third, done⟩ := bind_ok _ _ _ done
      cases done
      have firstBytes := congrArg List.length (readUint32_bytes request.up afterLen len first)
      have secondBytes := congrArg List.length (readUint32_bytes afterLen afterUri uri second)
      have thirdBytes := congrArg List.length (readUint16_bytes afterUri left appId third)
      rw [List.length_append] at firstBytes secondBytes thirdBytes
      change left.length ≤ request.up.length
      omega
  · cases done
    exact ⟨Nat.le_refl _, fun _ => rfl⟩

section Arrive
variable {World : Type} (consumer : MsgConsumer World)

/-- The first request that is handed on is made of the first frame. -/
theorem first_request (fuel : Nat) (world : World) (data : Bytes) (request : Request)
    (requests : List Request)
    (handed : (onDataLoop consumer fuel world ⟨data, 0⟩).requests = request :: requests) :
    popHeader (Request.make (consumer.memory world)
      (data.take (getProtoType (peekUint32 data)).2.toNat)
        (getProtoType (peekUint32 data)).1) = .ok request := by
  cases fuel with
  | zero => cases handed
  | succ fuel =>
      simp only [onDataLoop, ForwardBuf.data, List.drop_zero] at handed
      split at handed
      · cases handed
      · split at handed
        · cases handed
        · next popped found =>
            rw [found]
            split at handed
            · cases handed
              rfl
            · split at handed
              · cases handed
                rfl
              · cases handed
                rfl

/-- Under no tag that the length word of a message can have is the payload as
long as the body. -/
theorem payload_differs (memory : HeaderMemory) (body frame rest : Bytes) (request : Request)
    (content : frame =
      storeUint32 (XHTONL (UInt32.ofNat (HEADER_SIZE + max 1 body.length))) ++ rest)
    (length : frame.length = HEADER_SIZE + max 1 body.length)
    (room : HEADER_SIZE + body.length ≤ 65536 * (16 * 1024))
    (popped : popHeader (Request.make memory
      (frame.take (getProtoType (peekUint32 frame)).2.toNat)
        (getProtoType (peekUint32 frame)).1) = .ok request) :
    request.up.length ≠ body.length := by
  have nine : HEADER_SIZE = 9 := rfl
  have word : (UInt32.ofNat (HEADER_SIZE + max 1 body.length)).toNat =
      HEADER_SIZE + max 1 body.length :=
    UInt32.toNat_ofNat_of_lt' (by rw [UInt32.size]; omega)
  have peeked : peekUint32 frame = UInt32.ofNat (HEADER_SIZE + max 1 body.length) := by
    rw [content, peek_frame]
  obtain ⟨shorter, same⟩ := popHeader_up _ _ popped
  have realLen := getProtoType_len (peekUint32 frame)
  rw [peeked, word] at realLen
  simp only [Request.make, peeked, realLen] at shorter same
  rw [List.length_take] at shorter
  by_cases untagged : HEADER_SIZE + max 1 body.length < 2 ^ 29
  · have json := getProtoType_json (UInt32.ofNat (HEADER_SIZE + max 1 body.length))
      (word.trans_lt untagged)
    rw [json] at same
    -- The consumer takes the frame for one of the JSON protocol and keeps its header.
    rw [same (by decide), List.length_take]
    omega
  · -- A length from 2^29 on has a tag, and the length behind it is too small.
    omega

end Arrive

/-- No message of the base sender is delivered, whatever its uri, application
and body, though every body that the buffer takes is packed. -/
theorem base_sender_never_delivers {World : Type} (consumer : MsgConsumer World) (world : World)
    (memory : HeaderMemory) (uri : UInt8) (body : Bytes) :
    ¬ Delivers consumer world memory uri body ∧
      ((pack memory uri body).isSome ↔ HEADER_SIZE + body.length ≤ 65536 * (16 * 1024)) := by
  by_cases room : HEADER_SIZE + body.length ≤ 65536 * (16 * 1024)
  · obtain ⟨frame, rest, packed, content, length⟩ := pack_frame memory uri body room
    constructor
    · rintro ⟨sentFrame, same, fuel, request, handed, -, -, payload, -, -⟩
      rw [packed] at same
      cases same
      have popped := first_request consumer fuel world frame request [] handed
      exact payload_differs _ body frame rest request content length room popped
        (congrArg List.length payload)
    · rw [packed]
      exact iff_of_true rfl room
  · constructor
    · rintro ⟨frame, packed, -⟩
      rw [pack_too_long memory uri body room] at packed
      cases packed
    · rw [pack_too_long memory uri body room]
      exact iff_of_false Bool.false_ne_true room

/-- A consumer that accepts every request, in cleared memory. -/
def accepting : MsgConsumer Unit := ⟨fun _ => ⟨0, 0, 0, 0⟩, fun _ _ => (.returned 0, ())⟩

theorem short_message_not_delivered :
    ¬ Delivers accepting () ⟨0, 0, 0, 258⟩ 1 [97, 98, 99] ∧
      pack ⟨0, 0, 0, 258⟩ 1 [97, 98, 99] =
        some [0, 0, 0, 12, 0, 0, 0, 1, 1, 2, 98, 99] := by
  have packed : pack ⟨0, 0, 0, 258⟩ 1 [97, 98, 99] =
      some [0, 0, 0, 12, 0, 0, 0, 1, 1, 2, 98, 99] := by decide +kernel
  refine ⟨?_, packed⟩
  rintro ⟨frame, same, fuel, request, handed, -, -, payload, -, -⟩
  rw [packed] at same
  cases same
  have popped := first_request accepting fuel () _ request [] handed
  have whole : Except.ok request = Except.ok (Request.make ⟨0, 0, 0, 0⟩
      [0, 0, 0, 12, 0, 0, 0, 1, 1, 2, 98, 99] .json) := popped.symm.trans rfl
  cases whole
  exact absurd payload (by decide)

end FPayNode.MsgFrames
