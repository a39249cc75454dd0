import FPayNode.FrameDelivery

/-!
`core/base/Sender.cpp` and `JsonSender.cpp`: a message is built behind nine
bytes that are kept free for its header, and `endPack` fills them in. Two write
streams stand on one buffer, `hpk` at its start and `pk` behind the header. A
write that the buffer cannot take is an exception, here none.
-/

namespace FPayNode.SenderFrames

open DecimalText ByteStream BlockBuffers UnitStream JsonFrames FrameDelivery

abbrev PackBuffer := BlockBuffer (16 * 1024) 65536

instance packBlockNeZero : NeZero (16 * 1024) := ⟨by decide⟩

/-- The constructor of a write stream: its offset in the buffer. -/
def writeStream (pb : PackBuffer) (off : Nat) : Option (PackBuffer × Nat) := do
  let m_offset := pb.size + off
  let pb ← pb.resize m_offset 0
  pure (pb, m_offset)

def replaceUint8 (pb : PackBuffer) (pos : Nat) (u8 : UInt8) : Option PackBuffer :=
  pb.replace pos [u8]

def replaceUint32 (pb : PackBuffer) (pos : Nat) (u32 : UInt32) : Option PackBuffer :=
  pb.replace pos (storeUint32 (XHTONL u32))

structure JsonSender where
  pb : PackBuffer
  hpk : Nat
  pk : Nat
  len : UInt64
  uri : UInt8
  sessionId : UInt32

namespace JsonSender

/-- A sender for an object that marshals to `body`. `stale` is the length,
which no constructor sets. -/
def make (stale : UInt64) (uri : UInt8) (body : Bytes) : Option JsonSender := do
  let (pb, hpk) ← writeStream BlockBuffer.fresh 0
  let (pb, pk) ← writeStream pb HEADER_SIZE
  let pb ← pb.append body
  pure ⟨pb, hpk, pk, stale, uri, -1⟩

def headerSize : Nat := HEADER_SIZE

def bodySize (sender : JsonSender) : Nat := sender.pb.size - sender.pk

/-- The length counts the uri and the body. -/
def endPack (sender : JsonSender) : Option JsonSender := do
  let pb ← replaceUint32 sender.pb 0 sender.sessionId
  let pb ← replaceUint32 pb 4 sender.len.toUInt32
  let pb ← replaceUint8 pb 8 sender.uri
  let pb ← replaceUint32 pb 4 (UInt32.ofNat (1 + (pb.size - sender.pk)))
  pure { sender with pb := pb }

def endPacks : Nat → JsonSender → Option JsonSender
  | 0, sender => some sender
  | n + 1, sender => do endPacks n (← sender.endPack)

/-- The bytes from `header()` on that `AbstractConn::send` sends. -/
def sent (sender : JsonSender) : Bytes :=
  (sender.pb.content.drop sender.hpk).take (headerSize + sender.bodySize)

end JsonSender

/-- A message that the length word has room for. -/
structure Message where
  uri : UInt8
  body : Bytes
  fits : body.length + 1 < 2 ^ 29

/-- The request that a message should arrive as. -/
def Message.request (message : Message) : JsonRequest :=
  ⟨message.body, .json, 0xFFFFFFFF, (UInt32.ofNat (1 + message.body.length)).toUInt64, message.uri⟩

/-- The header of a body of some length. -/
def headerBytes (uri : UInt8) (bodySize : Nat) : Bytes :=
  storeUint32 (XHTONL 0xFFFFFFFF) ++ storeUint32 (XHTONL (UInt32.ofNat (1 + bodySize))) ++ [uri]

theorem headerBytes_length (uri : UInt8) (bodySize : Nat) :
    (headerBytes uri bodySize).length = 9 := rfl

def Message.frame (message : Message) : Bytes :=
  headerBytes message.uri message.body.length ++ message.body

theorem Message.frame_length (message : Message) :
    message.frame.length = 9 + message.body.length := by
  rw [Message.frame, List.length_append, headerBytes_length]

/-! Packing. -/

/-- A sender that was made for a message, packed or not. -/
structure Built (message : Message) (sender : JsonSender) : Prop where
  hpk : sender.hpk = 0
  pk : sender.pk = 9
  uri : sender.uri = message.uri
  sessionId : sender.sessionId = 0xFFFFFFFF
  header : sender.pb.content.length = 9 + message.body.length
  body : sender.pb.content.drop 9 = message.body

theorem writeStream_some (pb : PackBuffer) (off : Nat)
    (room : pb.content.length + off ≤ 65536 * (16 * 1024)) :
    ∃ after, writeStream pb off = some (after, pb.content.length + off) ∧
      after.content = pb.content ++ List.replicate off 0 := by
  obtain ⟨after, resized, content⟩ := BlockBuffer.resize_some pb (pb.content.length + off) 0
    (Nat.le_add_right _ _) room
  rw [Nat.add_sub_cancel_left] at content
  refine ⟨after, ?_, content⟩
  simp only [writeStream, BlockBuffer.size, resized, Option.bind_eq_bind, Option.bind_some,
    Option.pure_def]

/-- The object is marshalled behind nine zero bytes. -/
theorem make_some (stale : UInt64) (uri : UInt8) (body : Bytes)
    (room : HEADER_SIZE + body.length ≤ 65536 * (16 * 1024)) :
    ∃ pb, JsonSender.make stale uri body = some ⟨pb, 0, 9, stale, uri, -1⟩ ∧
      pb.content = List.replicate HEADER_SIZE 0 ++ body := by
  obtain ⟨empty, first, nothing⟩ := writeStream_some BlockBuffer.fresh 0 (by decide)
  have none : empty.content = [] := nothing
  obtain ⟨zeros, second, blank⟩ := writeStream_some empty HEADER_SIZE
    (by rw [none]; decide)
  rw [none, List.nil_append] at blank
  rw [none] at second
  obtain ⟨filled, appended, content⟩ := BlockBuffer.append_some zeros body
    (by rw [blank, List.length_append, List.length_replicate]; exact room)
  rw [blank] at content
  refine ⟨filled, ?_, content⟩
  simp only [JsonSender.make, Option.bind_eq_bind, first, Option.bind_some, second, appended]
  rfl

theorem make_built (stale : UInt64) (message : Message) :
    ∃ sender, JsonSender.make stale message.uri message.body = some sender ∧
      Built message sender := by
  have fits := message.fits
  obtain ⟨pb, made, content⟩ := make_some stale message.uri message.body
    (by rw [HEADER_SIZE]; omega)
  refine ⟨_, made, ?_⟩
  constructor
  · rfl
  · rfl
  · rfl
  · rfl
  · rw [content, List.length_append, List.length_replicate, HEADER_SIZE]
  · rw [content]
    rfl

theorem storeUint32_length (i32 : UInt32) : (storeUint32 i32).length = 4 := rfl

/-- The header in its three parts, and the body. -/
theorem header_parts (content body : Bytes) (size : content.length = 9 + body.length)
    (behind : content.drop 9 = body) :
    ∃ session length uri : Bytes, session.length = 4 ∧ length.length = 4 ∧ uri.length = 1 ∧
      content = session ++ (length ++ (uri ++ body)) := by
  refine ⟨content.take 4, (content.drop 4).take 4, (content.drop 8).take 1, ?_, ?_, ?_, ?_⟩
  · rw [List.length_take]
    omega
  · rw [List.length_take, List.length_drop]
    omega
  · rw [List.length_take, List.length_drop]
    omega
  · have last : content.drop 8 = (content.drop 8).take 1 ++ body := by
      rw [← behind, ← List.drop_drop (i := 1) (j := 8), List.take_append_drop]
    have middle : content.drop 4 = (content.drop 4).take 4 ++ content.drop 8 := by
      rw [← List.drop_drop (i := 4) (j := 4), List.take_append_drop]
    rw [← last, ← middle, List.take_append_drop]

/-- The four replacements, whatever was in the nine bytes before. -/
theorem endPack_pieces (sender : JsonSender) (session length uri body : Bytes)
    (pk : sender.pk = 9) (four : session.length = 4) (four' : length.length = 4)
    (one : uri.length = 1) (parts : sender.pb.content = session ++ (length ++ (uri ++ body))) :
    ∃ pb, sender.endPack = some { sender with pb := pb } ∧
      pb.content = storeUint32 (XHTONL sender.sessionId) ++
        storeUint32 (XHTONL (UInt32.ofNat (1 + body.length))) ++ ([sender.uri] ++ body) := by
  obtain ⟨pb1, first, content1⟩ := BlockBuffer.replace_piece sender.pb 0 [] session _
    (storeUint32 (XHTONL sender.sessionId)) parts rfl (List.cons_ne_nil _ _) four
  obtain ⟨pb2, second, content2⟩ := BlockBuffer.replace_piece pb1 4 _ length _
    (storeUint32 (XHTONL sender.len.toUInt32)) content1 rfl (List.cons_ne_nil _ _) four'
  obtain ⟨pb3, third, content3⟩ := BlockBuffer.replace_piece pb2 8
    (storeUint32 (XHTONL sender.sessionId) ++ storeUint32 (XHTONL sender.len.toUInt32)) uri
    body [sender.uri] (by rw [content2, List.append_assoc]) rfl (List.cons_ne_nil _ _) one
  have size : pb3.size - sender.pk = body.length := by
    rw [BlockBuffer.size, content3, pk]
    simp only [storeUint32, List.length_append, List.length_cons, List.length_nil]
    omega
  obtain ⟨pb4, fourth, content4⟩ := BlockBuffer.replace_piece pb3 4
    (storeUint32 (XHTONL sender.sessionId)) (storeUint32 (XHTONL sender.len.toUInt32))
    ([sender.uri] ++ body) (storeUint32 (XHTONL (UInt32.ofNat (1 + body.length))))
    (by rw [content3, List.append_assoc]) (storeUint32_length _) (List.cons_ne_nil _ _)
    (by rw [storeUint32_length, storeUint32_length])
  refine ⟨pb4, ?_, content4⟩
  simp only [JsonSender.endPack, replaceUint32, replaceUint8, first, second, third, size, fourth,
    Option.bind_eq_bind, Option.bind_some, Option.pure_def]

theorem endPack_built (message : Message) (sender : JsonSender) (built : Built message sender) :
    ∃ packed, sender.endPack = some packed ∧ Built message packed ∧
      packed.pb.content = message.frame := by
  obtain ⟨session, length, uri, four, four', one, parts⟩ :=
    header_parts sender.pb.content message.body built.header built.body
  obtain ⟨pb, packed, content⟩ := endPack_pieces sender session length uri message.body built.pk
    four four' one parts
  have frame : pb.content = message.frame := by
    rw [content, built.sessionId, built.uri]
    rfl
  refine ⟨{ sender with pb := pb }, packed, ?_, frame⟩
  constructor
  · exact built.hpk
  · exact built.pk
  · exact built.uri
  · exact built.sessionId
  · rw [frame, Message.frame_length]
  · rw [frame]
    rfl

theorem endPacks_built (message : Message) (n : Nat) (sender : JsonSender)
    (built : Built message sender) (packedOnce : 0 < n) :
    ∃ packed, JsonSender.endPacks n sender = some packed ∧ Built message packed ∧
      packed.pb.content = message.frame := by
  induction n generalizing sender with
  | zero => cases packedOnce
  | succ n ih =>
      obtain ⟨packed, done, again, content⟩ := endPack_built message sender built
      rw [JsonSender.endPacks, done]
      cases n with
      | zero => exact ⟨packed, rfl, again, content⟩
      | succ n => exact ih packed again (Nat.succ_pos n)

theorem built_sent (message : Message) (sender : JsonSender) (built : Built message sender) :
    sender.sent = sender.pb.content := by
  rw [JsonSender.sent, JsonSender.bodySize, built.hpk, built.pk, BlockBuffer.size, built.header,
    Nat.add_sub_cancel_left, List.drop_zero]
  apply List.take_of_length_le
  rw [built.header]
  rfl

/-! Arriving. -/

theorem getProtoType_json (len : UInt32) (small : len.toNat < 2 ^ 29) :
    (getProtoType len).1 = .json := by
  have top3Bit : len >>> PROTO_MAGIC_SHIFT = 0 := by
    apply UInt32.toNat_inj.mp
    have shift : PROTO_MAGIC_SHIFT.toNat % 32 = 29 := rfl
    rw [UInt32.toNat_shiftRight, shift, Nat.shiftRight_eq_div_pow]
    exact Nat.div_eq_of_lt small
  simp only [getProtoType, top3Bit, ↓reduceIte]

theorem Message.count (message : Message) :
    (UInt32.ofNat (1 + message.body.length)).toNat = 1 + message.body.length := by
  have fits := message.fits
  exact UInt32.toNat_ofNat_of_lt' (by rw [UInt32.size]; omega)

theorem frame_lengthWord (message : Message) (rest : Bytes) :
    lengthWord (message.frame ++ rest) = UInt32.ofNat (1 + message.body.length) := by
  obtain ⟨a0, a1, a2, a3, session, -⟩ := read_written 0xFFFFFFFF
  obtain ⟨b0, b1, b2, b3, length, word⟩ := read_written (UInt32.ofNat (1 + message.body.length))
  rw [← word, Message.frame, headerBytes, session, length]
  rfl

theorem frame_size (message : Message) (rest : Bytes) :
    frameSize (message.frame ++ rest) = some message.frame.length := by
  have fits := message.fits
  have header : JSON_HEADER_SIZE.toNat = 8 := rfl
  have long : 8 ≤ (message.frame ++ rest).length := by
    rw [List.length_append, Message.frame_length]
    omega
  rw [frameSize_realLen _ long, frame_lengthWord, UInt32.toNat_add, getProtoType_len,
    Message.count, header, Message.frame_length]
  congr 1
  omega

theorem frame_popHeader (message : Message) (stale : Stale) :
    popHeader (JsonRequest.make stale message.frame .json) = .ok message.request := by
  simp only [popHeader, JsonRequest.make, Message.frame, headerBytes, List.append_assoc,
    readUint32_written, bind, Except.bind]
  rfl

section Serve
variable {World : Type} (consumer : Consumer World)

/-- The requests that are served until one stops, and whether none did. -/
def serve : World → List JsonRequest → List JsonRequest × Bool
  | _, [] => ([], true)
  | world, request :: requests =>
      match consumer.doRequest world request with
      | (.threw _, _) => ([request], false)
      | (.returned ret, after) =>
          if ret = -1 then ([request], false)
          else (request :: (serve after requests).1, (serve after requests).2)

theorem serve_all (world : World) (requests : List JsonRequest)
    (all : (serve consumer world requests).2 = true) :
    (serve consumer world requests).1 = requests := by
  induction requests generalizing world with
  | nil => rfl
  | cons request requests ih =>
      simp only [serve] at all ⊢
      split at all
      · cases all
      · split at all
        · cases all
        · next going =>
            simp only [if_neg going]
            rw [ih _ all]

/-- A message is visited as its request is served. -/
theorem visit_frame (world : World) (message : Message) :
    visitFrame consumer world message.frame =
      match consumer.doRequest world message.request with
      | (.threw _, after) => ⟨⟨message.frame, some message.request⟩, false, after⟩
      | (.returned ret, after) => ⟨⟨message.frame, some message.request⟩, ret ≠ -1, after⟩ := by
  have fits := message.fits
  have word := frame_lengthWord message []
  rw [List.append_nil] at word
  have proto : (getProtoType (lengthWord message.frame)).1 = .json := by
    apply getProtoType_json
    rw [word, Message.count]
    omega
  apply visitFrame_popped
  rw [proto, frame_popHeader]

/-- Visiting the frames of some messages serves their requests. -/
theorem visitAll_messages (world : World) (messages : List Message) :
    (visitAll (visitFrame consumer) world (messages.map Message.frame)).outputs.map
        Processed.request = (serve consumer world (messages.map Message.request)).1.map some ∧
      (visitAll (visitFrame consumer) world (messages.map Message.frame)).left =
        if (serve consumer world (messages.map Message.request)).2 then some [] else none := by
  induction messages generalizing world with
  | nil => exact ⟨rfl, rfl⟩
  | cons message messages ih =>
      simp only [List.map_cons, visitAll, serve, visit_frame]
      rcases consumer.doRequest world message.request with ⟨verdict, after⟩
      cases verdict with
      | threw exn => exact ⟨rfl, rfl⟩
      | returned ret =>
          by_cases stops : ret = -1
          · simp [stops]
          · obtain ⟨outputs, left⟩ := ih after
            simp [stops, outputs, left]

/-- A frame is cut off whatever comes behind it. -/
theorem frame_cut (limit : Nat) (message : Message) (small : message.frame.length ≤ limit)
    (more : Bytes) : (frames limit).front (message.frame ++ more) = some message.frame.length := by
  have within : message.frame.length ≤ (message.frame ++ more).length := by
    rw [List.length_append]
    exact Nat.le_add_right _ _
  exact (wholeFrame_some limit _ _).mpr ⟨frame_size message more, within, small⟩

theorem onData_messages (world : World) (messages : List Message) :
    (onData consumer world (messages.map Message.frame).flatten).processed.map Processed.request =
        (serve consumer world (messages.map Message.request)).1.map some ∧
      ((serve consumer world (messages.map Message.request)).2 = true →
        (onData consumer world (messages.map Message.frame).flatten).ended =
          .ok (Int32.ofNat (messages.map Message.frame).flatten.length)) ∧
      ((serve consumer world (messages.map Message.request)).2 = true →
        (onData consumer world (messages.map Message.frame).flatten).offset =
          (messages.map Message.frame).flatten.length) := by
  obtain ⟨outputs, left⟩ := visitAll_messages consumer world messages
  have reports := onData_drain consumer _ world (messages.map Message.frame).flatten (Nat.le_refl _)
  rw [drain_units] at reports
  swap
  · intro piece member more
    obtain ⟨message, -, same⟩ := List.mem_map.mp member
    subst same
    exact frame_cut _ message (List.sublist_flatten_of_mem member).length_le more
  have whole : (serve consumer world (messages.map Message.request)).2 = true →
      (onData consumer world (messages.map Message.frame).flatten).ended = .ok (Int32.ofNat
        (onData consumer world (messages.map Message.frame).flatten).offset) ∧
      (onData consumer world (messages.map Message.frame).flatten).offset =
        (messages.map Message.frame).flatten.length := by
    intro all
    rw [if_pos all] at left
    obtain ⟨ended, inside, rest⟩ := reports.goesOn [] left
    exact ⟨ended, Nat.le_antisymm inside (List.drop_eq_nil_iff.mp rest.symm)⟩
  refine ⟨?_, ?_, ?_⟩
  · rw [reports.processed, outputs]
  · intro all
    rw [(whole all).1, (whole all).2]
  · exact fun all => (whole all).2

end Serve

/-- A message on its way: the length that its sender found in memory, and how
often `endPack` was called again. -/
structure Packing where
  message : Message
  stale : UInt64
  again : Nat

def Packing.pack (packing : Packing) : Option Bytes := do
  let sender ← JsonSender.make packing.stale packing.message.uri packing.message.body
  let packed ← JsonSender.endPacks (packing.again + 1) sender
  pure packed.sent

def packAll (packings : List Packing) : Option Bytes :=
  (packings.mapM Packing.pack).map List.flatten

theorem pack_frame (packing : Packing) : packing.pack = some packing.message.frame := by
  obtain ⟨sender, made, built⟩ := make_built packing.stale packing.message
  obtain ⟨packed, done, still, content⟩ :=
    endPacks_built packing.message (packing.again + 1) sender built (Nat.succ_pos _)
  simp only [Packing.pack, made, done, Option.bind_eq_bind, Option.bind_some, Option.pure_def,
    built_sent packing.message packed still, content]

theorem packAll_frames (packings : List Packing) :
    packAll packings = some ((packings.map Packing.message).map Message.frame).flatten := by
  have all : packings.mapM Packing.pack =
      some ((packings.map Packing.message).map Message.frame) := by
    induction packings with
    | nil => rfl
    | cons packing packings ih =>
        rw [List.mapM_cons, pack_frame, ih]
        rfl
  rw [packAll, all, Option.map_some]

/-- What is sent for some messages arrives as their requests, in order and with
nothing left over, as far as they are served; and packing a message again, as
often as one likes, changes the nine bytes of its header only. -/
theorem sent_messages_arrive {World : Type} (consumer : Consumer World) (world : World)
    (packings : List Packing) :
    (∃ stream, packAll packings = some stream ∧
      (onData consumer world stream).processed.map Processed.request =
        (serve consumer world
          ((packings.map Packing.message).map Message.request)).1.map some ∧
      ((serve consumer world ((packings.map Packing.message).map Message.request)).2 = true →
        (onData consumer world stream).processed.map Processed.request =
            ((packings.map Packing.message).map Message.request).map some ∧
          (onData consumer world stream).ended = .ok (Int32.ofNat stream.length) ∧
          (onData consumer world stream).offset = stream.length)) ∧
    ∀ packing ∈ packings, ∃ sender packed,
      JsonSender.make packing.stale packing.message.uri packing.message.body = some sender ∧
      JsonSender.endPacks (packing.again + 1) sender = some packed ∧
      packed.pb.content.length = sender.pb.content.length ∧
      packed.pb.content.drop 9 = sender.pb.content.drop 9 := by
  constructor
  · obtain ⟨processed, ended, offset⟩ := onData_messages consumer world
      (packings.map Packing.message)
    refine ⟨_, packAll_frames packings, processed, ?_⟩
    intro all
    rw [processed, serve_all consumer world _ all]
    exact ⟨rfl, ended all, offset all⟩
  · intro packing _
    obtain ⟨sender, made, built⟩ := make_built packing.stale packing.message
    obtain ⟨packed, done, still, -⟩ :=
      endPacks_built packing.message (packing.again + 1) sender built (Nat.succ_pos _)
    exact ⟨sender, packed, made, done, still.header.trans built.header.symm,
      still.body.trans built.body.symm⟩

end FPayNode.SenderFrames
