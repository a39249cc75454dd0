import FPayNode.MsgFrames

/-!
The constructor of `JsonSender` that takes a session. `Sender` marshals the object
already, the body of the constructor marshals it once more behind that, and the
consumer gets one payload of both.
-/

namespace FPayNode.SessionFrames

open DecimalText ByteStream BlockBuffers JsonFrames FrameDelivery SenderFrames SenderObjects

/-- What an object marshals to. -/
def marshalledBytes (obj : Marshallable) : Bytes := obj.pieces.flatten

/-- `JsonSender(s, uri, m)` and `endPack`, as `AbstractConn::send` sends it. -/
def pack (memory : HeaderMemory) (sessionId : UInt32) (uri : UInt8) (obj : Marshallable) :
    Option Bytes := do
  let object ← construct memory (.jsonSenderFor sessionId uri obj)
  pure (MsgFrames.sent (endPack object).sender)

/-- The consumer decodes the message to one request with its session, its uri and
what its object marshals to. -/
def Arrives {World : Type} (consumer : Consumer World) (world : World) (memory : HeaderMemory)
    (sessionId : UInt32) (uri : UInt8) (obj : Marshallable) : Prop :=
  ∃ frame request, pack memory sessionId uri obj = some frame ∧
    (onData consumer world frame).processed.map Processed.request = [some request] ∧
      request.sessionId = sessionId ∧ request.uri = uri ∧ request.up = marshalledBytes obj

/-- A frame for a session. -/
def sessionFrame (sessionId : UInt32) (uri : UInt8) (body : Bytes) : Bytes :=
  storeUint32 (XHTONL sessionId) ++ storeUint32 (XHTONL (UInt32.ofNat (1 + body.length))) ++
    ([uri] ++ body)

/-! What is packed. -/

theorem blank_session (memory : HeaderMemory) (sessionId : Option UInt32) (sender : Sender)
    (blank : Sender.blank memory sessionId = some sender) : sender.sessionId = sessionId := by
  simp only [Sender.blank, Option.bind_eq_bind, Option.bind_eq_some_iff] at blank
  obtain ⟨⟨empty, hpk⟩, -, ⟨zeros, pk⟩, -, made⟩ := blank
  cases made
  rfl

/-- What the second round of marshalling starts from, and what it leaves. -/
structure Appended (before after : Tracked) (uri : UInt8) (obj : Marshallable) : Prop where
  marshalled : after.marshalled = before.marshalled ++ marshalledBytes obj
  uri : after.sender.uri = uri
  hpk : after.sender.hpk = before.sender.hpk
  sessionId : after.sender.sessionId = before.sender.sessionId

theorem marshall_appended (uri : UInt8) (obj : Marshallable) (before after : Tracked)
    (done : marshall (some uri) obj before = (after, true)) : Appended before after uri obj := by
  simp only [marshall, marshal, Prod.mk.injEq, Bool.and_eq_true] at done
  obtain ⟨same, completed, -⟩ := done
  cases same
  refine ⟨?_, rfl, rfl, rfl⟩
  change _ ++ (writePieces _ _).bytes = _
  rw [writePieces_completed _ _ completed, marshalledBytes]

theorem marshall_fits (uri : UInt8) (obj : Marshallable) (object : Tracked)
    (whole : obj.throws = false)
    (room : object.sender.pb.content.length + (marshalledBytes obj).length ≤
      65536 * (16 * 1024)) :
    ∃ after, marshall (some uri) obj object = (after, true) := by
  refine ⟨_, Prod.ext rfl ?_⟩
  simp only [marshall, marshal, writePieces_fits obj.pieces object.sender.pb room, whole]
  rfl

/-- The object is in the body twice. -/
theorem construct_twice (memory : HeaderMemory) (sessionId : UInt32) (uri : UInt8)
    (obj : Marshallable) (object : Tracked)
    (made : construct memory (.jsonSenderFor sessionId uri obj) = some object) :
    object.marshalled = marshalledBytes obj ++ marshalledBytes obj ∧ object.sender.uri = uri ∧
      object.sender.hpk = 0 ∧ object.sender.sessionId = some sessionId := by
  obtain ⟨sender, blank, hpk, -⟩ := blank_some memory (some sessionId)
  have session := blank_session memory (some sessionId) sender blank
  simp only [construct, Construction.sessionId, blank, Construction.marshalls, marshallEach,
    Option.bind_eq_bind, Option.bind_some] at made
  split at made
  · next base once =>
      split at made
      · next derived twice =>
          cases made
          have first := marshall_appended uri obj _ base once
          have second := marshall_appended uri obj base _ twice
          refine ⟨?_, second.uri, ?_, ?_⟩
          · rw [second.marshalled, first.marshalled, List.nil_append]
          · rw [second.hpk, first.hpk, hpk]
          · rw [second.sessionId, first.sessionId, session]
      · cases made
  · cases made

/-- Twice the object fits behind the header, and it does not throw. -/
theorem construct_fits (memory : HeaderMemory) (sessionId : UInt32) (uri : UInt8)
    (obj : Marshallable) (whole : obj.throws = false)
    (room : HEADER_SIZE + 2 * (marshalledBytes obj).length ≤ 65536 * (16 * 1024)) :
    ∃ object, construct memory (.jsonSenderFor sessionId uri obj) = some object := by
  obtain ⟨sender, blank, -, laid⟩ := blank_some memory (some sessionId)
  obtain ⟨base, once⟩ := marshall_fits uri obj ⟨sender, []⟩ whole (by
    rw [laid.size, List.length_nil]
    omega)
  have first := marshall_appended uri obj ⟨sender, []⟩ base once
  have second := marshall_laid (some uri) obj ⟨sender, []⟩ laid
  rw [once] at second
  obtain ⟨derived, twice⟩ := marshall_fits uri obj base whole (by
    rw [second.size, first.marshalled, List.nil_append]
    omega)
  refine ⟨derived, ?_⟩
  simp only [construct, Construction.sessionId, blank, Construction.marshalls, marshallEach,
    Option.bind_eq_bind, Option.bind_some, once, twice]

theorem endPack_content (object : Tracked) (sessionId : UInt32) (laid : Laid object)
    (hpk : object.sender.hpk = 0) (session : object.sender.sessionId = some sessionId) :
    MsgFrames.sent (endPack object).sender =
      sessionFrame sessionId object.sender.uri object.marshalled := by
  obtain ⟨held, length, uri, four, four', one, parts⟩ :=
    header_parts object.sender.pb.content object.marshalled laid.size laid.body
  obtain ⟨pb, packed, content⟩ := endPack_pieces
    ⟨object.sender.pb, object.sender.hpk, object.sender.pk, object.sender.len,
      object.sender.uri, sessionId⟩ held length uri object.marshalled laid.pk four four' one parts
  have whole : endPack object = ⟨{ object.sender with pb := pb }, object.marshalled⟩ := by
    simp only [endPack, session, packed]
  have after := endPack_laid object laid
  rw [whole] at after ⊢
  have header : HEADER_SIZE ≤ pb.content.length := by
    rw [after.size]
    exact Nat.le_add_right _ _
  exact (MsgFrames.sent_content { object.sender with pb := pb } hpk after.pk header).trans content

/-! What arrives. -/

theorem sessionFrame_length (sessionId : UInt32) (uri : UInt8) (body : Bytes) :
    (sessionFrame sessionId uri body).length = 9 + body.length := by
  simp only [sessionFrame, List.length_append, storeUint32_length, List.length_singleton]
  omega

theorem sessionFrame_lengthWord (sessionId : UInt32) (uri : UInt8) (body : Bytes) :
    lengthWord (sessionFrame sessionId uri body) = UInt32.ofNat (1 + body.length) := by
  obtain ⟨a0, a1, a2, a3, session, -⟩ := read_written sessionId
  obtain ⟨b0, b1, b2, b3, length, word⟩ := read_written (UInt32.ofNat (1 + body.length))
  rw [← word, sessionFrame, session, length]
  rfl

theorem sessionFrame_popHeader (stale : Stale) (sessionId : UInt32) (uri : UInt8) (body : Bytes) :
    popHeader (JsonRequest.make stale (sessionFrame sessionId uri body) .json) =
      .ok ⟨body, .json, sessionId, (UInt32.ofNat (1 + body.length)).toUInt64, uri⟩ := by
  simp only [popHeader, JsonRequest.make, sessionFrame, List.append_assoc, readUint32_written,
    bind, Except.bind]
  rfl

theorem header_read (up afterSession afterLen left : Bytes) (session len : UInt32) (uri : UInt8)
    (first : readUint32 up = .ok (session, afterSession))
    (second : readUint32 afterSession = .ok (len, afterLen))
    (third : readUint8 afterLen = .ok (uri, left)) : up.length = 9 + left.length := by
  rw [readUint32_bytes up afterSession session first,
    readUint32_bytes afterSession afterLen len second, readUint8_bytes afterLen left uri third]
  simp only [List.length_append, storeUint32_length, List.length_singleton]
  omega

/-- What `popHeader` leaves of a frame under a tag that it knows. -/
theorem popHeader_read (request popped : JsonRequest)
    (tagged : request.protoType = .json ∨ request.protoType = .bin)
    (done : popHeader request = .ok popped) : request.up.length = 9 + popped.up.length := by
  -- The header is the same under both tags.
  rcases tagged with tag | tag
  all_goals
    simp only [popHeader, tag] at done
    obtain ⟨⟨session, afterSession⟩, first, done⟩ := bind_ok _ _ _ done
    obtain ⟨⟨len, afterLen⟩, second, done⟩ := bind_ok _ _ _ done
    obtain ⟨⟨uri, left⟩, third, done⟩ := bind_ok _ _ _ done
    cases done
    exact header_read _ _ _ _ session len uri first second third

section Arrive
variable {World : Type} (consumer : Consumer World)

theorem processFrame_request (world : World) (frame : Bytes) (proto : PROTO_T) :
    (processFrame consumer world frame proto).1.request =
      (popHeader (JsonRequest.make (consumer.stale world) frame proto)).toOption := by
  rw [processFrame]
  cases popHeader (JsonRequest.make (consumer.stale world) frame proto) with
  | error exn => rfl
  | ok request =>
      dsimp only
      rcases consumer.doRequest world request with ⟨verdict, after⟩
      cases verdict with
      | threw exn => rfl
      | returned ret => rfl

/-- A request that is handed on is made of the first frame. -/
theorem first_request (world : World) (data : Bytes) (request : JsonRequest)
    (requests : List (Option JsonRequest))
    (handed : (onData consumer world data).processed.map Processed.request =
      some request :: requests) :
    popHeader (JsonRequest.make (consumer.stale world)
      (data.take ((getProtoType (lengthWord data)).2 + JSON_HEADER_SIZE).toNat)
        (getProtoType (lengthWord data)).1) = .ok request := by
  rw [onData, onDataLoop_succ] at handed
  split at handed
  · cases handed
  · have made := processFrame_request consumer world
      (data.take ((getProtoType (lengthWord data)).2 + JSON_HEADER_SIZE).toNat)
      (getProtoType (lengthWord data)).1
    simp only [ForwardBuf.data, List.drop_zero] at handed
    obtain ⟨⟨processed, step, after⟩, result⟩ : ∃ result, processFrame consumer world
        (data.take ((getProtoType (lengthWord data)).2 + JSON_HEADER_SIZE).toNat)
        (getProtoType (lengthWord data)).1 = result := ⟨_, rfl⟩
    rw [result] at made handed
    have same : processed.request = some request := by
      cases step with
      | goesOn => exact (List.cons.inj handed).1
      | minusOne => exact (List.cons.inj handed).1
      | threw exn => exact (List.cons.inj handed).1
    rw [same] at made
    cases popped : popHeader (JsonRequest.make (consumer.stale world)
        (data.take ((getProtoType (lengthWord data)).2 + JSON_HEADER_SIZE).toNat)
        (getProtoType (lengthWord data)).1) with
    | error exn =>
        rw [popped] at made
        cases made
    | ok first =>
        rw [popped] at made
        cases made
        rfl

/-- Behind the last byte there is no other frame. -/
theorem onDataLoop_finished (fuel : Nat) (world : World) (data : Bytes) :
    (onDataLoop consumer fuel world (ForwardBuf.erase ⟨data, 0⟩ data.length)).processed = [] := by
  cases fuel with
  | zero => rfl
  | succ fuel =>
      have nothing : (ForwardBuf.erase ⟨data, 0⟩ data.length).empty = true := by
        simp only [ForwardBuf.empty, ForwardBuf.erase, Nat.zero_add, decide_true]
      rw [onDataLoop_succ, nothing, Bool.true_or, Bool.true_or, if_pos rfl]

/-- A body that the length word has room for arrives. -/
theorem sessionFrame_arrives (world : World) (sessionId : UInt32) (uri : UInt8) (body : Bytes)
    (small : body.length + 1 < 2 ^ 29) :
    (onData consumer world (sessionFrame sessionId uri body)).processed.map Processed.request =
      [some ⟨body, .json, sessionId, (UInt32.ofNat (1 + body.length)).toUInt64, uri⟩] := by
  have word : (UInt32.ofNat (1 + body.length)).toNat = 1 + body.length :=
    UInt32.toNat_ofNat_of_lt' (by rw [UInt32.size]; omega)
  have json := getProtoType_json (UInt32.ofNat (1 + body.length)) (by rw [word]; omega)
  have realLen : ((getProtoType (UInt32.ofNat (1 + body.length))).2 +
      JSON_HEADER_SIZE).toNat = (sessionFrame sessionId uri body).length := by
    have header : JSON_HEADER_SIZE.toNat = 8 := rfl
    rw [UInt32.toNat_add, getProtoType_len, word, header, sessionFrame_length]
    omega
  have there : ¬ ((ForwardBuf.empty ⟨sessionFrame sessionId uri body, 0⟩ ||
      decide (ForwardBuf.size ⟨sessionFrame sessionId uri body, 0⟩ < JSON_HEADER_SIZE.toNat) ||
      decide (ForwardBuf.size ⟨sessionFrame sessionId uri body, 0⟩ <
        (sessionFrame sessionId uri body).length)) = true) := by
    have header : JSON_HEADER_SIZE.toNat = 8 := rfl
    simp only [ForwardBuf.empty, ForwardBuf.size, sessionFrame_length, header, Bool.or_eq_true,
      decide_eq_true_eq]
    omega
  have made := processFrame_request consumer world (sessionFrame sessionId uri body) .json
  rw [sessionFrame_popHeader] at made
  rw [onData, onDataLoop_succ]
  simp only [ForwardBuf.data, List.drop_zero, sessionFrame_lengthWord, realLen, if_neg there,
    json, List.take_length]
  revert made
  rcases processFrame consumer world (sessionFrame sessionId uri body) .json with
    ⟨processed, step, after⟩
  intro made
  cases step with
  | threw exn => exact congrArg (fun request => [request]) made
  | minusOne => exact congrArg (fun request => [request]) made
  | goesOn =>
      simp only [onDataLoop_finished consumer, List.map_cons, List.map_nil]
      exact congrArg (fun request => [request]) made

end Arrive

/-- The tags of the words below 2^30. -/
theorem getProtoType_tagged (len : UInt32) (small : len.toNat < 2 ^ 30) :
    (getProtoType len).1 = .json ∨ (getProtoType len).1 = .bin := by
  have shift : PROTO_MAGIC_SHIFT.toNat % 32 = 29 := rfl
  have bits : (len >>> PROTO_MAGIC_SHIFT).toNat < 2 := by
    rw [UInt32.toNat_shiftRight, shift, Nat.shiftRight_eq_div_pow]
    exact Nat.div_lt_of_lt_mul small
  simp only [getProtoType]
  by_cases zero : len >>> PROTO_MAGIC_SHIFT = 0
  · exact .inl (if_pos zero)
  · have one : len >>> PROTO_MAGIC_SHIFT = 1 := by
      have nonzero : (len >>> PROTO_MAGIC_SHIFT).toNat ≠ 0 :=
        fun none => zero (UInt32.toNat_inj.mp none)
      apply UInt32.toNat_inj.mp
      change _ = 1
      omega
    exact .inr (by rw [if_neg zero, if_pos one])

/-- Twice a length is the length only of nothing, whatever the tag cuts off. -/
theorem payload_differs (stale : Stale) (sessionId : UInt32) (uri : UInt8) (body : Bytes)
    (request : JsonRequest) (nonempty : body ≠ []) (small : body.length + 1 < 2 ^ 29)
    (popped : popHeader (JsonRequest.make stale
      ((sessionFrame sessionId uri (body ++ body)).take
        ((getProtoType (lengthWord (sessionFrame sessionId uri (body ++ body)))).2 +
          JSON_HEADER_SIZE).toNat)
        (getProtoType (lengthWord (sessionFrame sessionId uri (body ++ body)))).1) =
      .ok request) :
    request.up.length ≠ body.length := by
  have positive : 0 < body.length := List.length_pos_iff.mpr nonempty
  have twice : (body ++ body).length = 2 * body.length := by
    rw [List.length_append]
    omega
  rw [sessionFrame_lengthWord, twice] at popped
  have word : (UInt32.ofNat (1 + 2 * body.length)).toNat = 1 + 2 * body.length :=
    UInt32.toNat_ofNat_of_lt' (by rw [UInt32.size]; omega)
  have realLen : ((getProtoType (UInt32.ofNat (1 + 2 * body.length))).2 +
      JSON_HEADER_SIZE).toNat = (1 + 2 * body.length) % 2 ^ 29 + 8 := by
    have header : JSON_HEADER_SIZE.toNat = 8 := rfl
    rw [UInt32.toNat_add, getProtoType_len, word, header]
    omega
  have read := popHeader_read _ _ (getProtoType_tagged _ (by rw [word]; omega)) popped
  simp only [JsonRequest.make, realLen, List.length_take, sessionFrame_length, twice] at read
  omega

section Main
variable {World : Type} (consumer : Consumer World)

theorem session_frame_arrives_iff (world : World) (memory : HeaderMemory) (sessionId : UInt32)
    (uri : UInt8) (obj : Marshallable) (whole : obj.throws = false)
    (small : (marshalledBytes obj).length + 1 < 2 ^ 29) :
    Arrives consumer world memory sessionId uri obj ↔ marshalledBytes obj = [] := by
  constructor
  · rintro ⟨frame, request, packed, handed, -, -, payload⟩
    by_contra nonempty
    simp only [pack, Option.bind_eq_bind, Option.bind_eq_some_iff, Option.pure_def,
      Option.some.injEq] at packed
    obtain ⟨object, made, content⟩ := packed
    obtain ⟨twice, -, hpk, session⟩ := construct_twice memory sessionId uri obj object made
    rw [endPack_content object sessionId (construct_laid memory _ object made) hpk session,
      twice] at content
    rw [← content] at handed
    have popped := first_request consumer world _ request [] handed
    exact payload_differs _ sessionId _ _ request nonempty small popped
      (congrArg List.length payload)
  · intro nothing
    obtain ⟨object, made⟩ := construct_fits memory sessionId uri obj whole
      (by rw [nothing]; decide)
    obtain ⟨twice, same, hpk, session⟩ := construct_twice memory sessionId uri obj object made
    have content := endPack_content object sessionId (construct_laid memory _ object made) hpk
      session
    rw [twice, nothing, List.append_nil, same] at content
    refine ⟨_, _, ?_, sessionFrame_arrives consumer world sessionId uri [] (by decide), rfl, rfl,
      nothing.symm⟩
    simp only [pack, made, content, Option.bind_eq_bind, Option.bind_some, Option.pure_def]

end Main

theorem session_frame_arrives_iff_nothing :
    Arrives (⟨fun _ => ⟨0, 0, 0⟩, fun _ _ => (.returned 0, ())⟩ : Consumer Unit) ()
      ⟨0, 0, 0, 0⟩ 7 3 ⟨[], false⟩ :=
  (session_frame_arrives_iff _ () ⟨0, 0, 0, 0⟩ 7 3 ⟨[], false⟩ rfl (by decide)).mpr rfl

/-- One byte for session 7 arrives as two. -/
theorem session_frame_doubled :
    pack ⟨0, 0, 0, 0⟩ 7 3 ⟨[[97]], false⟩ =
        some [0, 0, 0, 7, 0, 0, 0, 3, 3, 97, 97] ∧
      ¬ Arrives (⟨fun _ => ⟨0, 0, 0⟩, fun _ _ => (.returned 0, ())⟩ : Consumer Unit) ()
        ⟨0, 0, 0, 0⟩ 7 3 ⟨[[97]], false⟩ := by
  have packed : pack ⟨0, 0, 0, 0⟩ 7 3 ⟨[[97]], false⟩ =
      some [0, 0, 0, 7, 0, 0, 0, 3, 3, 97, 97] := by decide +kernel
  refine ⟨packed, ?_⟩
  rintro ⟨frame, request, same, handed, -, -, payload⟩
  rw [packed] at same
  cases same
  have popped := first_request _ () _ request [] handed
  have both : Except.ok request = Except.ok (⟨[97, 97], .json, 7, 3, 3⟩ : JsonRequest) :=
    popped.symm.trans rfl
  cases both
  exact absurd payload (by decide)

end FPayNode.SessionFrames
