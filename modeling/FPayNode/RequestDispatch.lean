import FPayNode.FrameDelivery

/-!
`core/base/ServerContext.cpp` and `CerealHandler.h`: a request is looked up by
its uri in the table of form entries, its payload is unpacked by the form
handler of the entry, and the result is handed to the entry's function. What
cereal makes of a payload is a parameter, and the functions themselves do not
throw.
-/

namespace FPayNode.RequestDispatch

open CommandProgram DecimalText ByteStream BlockBuffers UnitStream JsonFrames FrameDelivery

inductive FormProcType where
  | fpt_vc | fpt_vuc | fpt_vkc | fpt_vcc | fpt_null
  deriving DecidableEq

/-- An entry of the form map. `parse` is cereal reading the type of the entry,
none when it throws; `target` says whether the entry was added with a target. -/
structure FormEntry (Cmd State : Type) where
  parse : Bytes → Option Cmd
  type : FormProcType
  target : Bool
  proc : Option UInt32 → Cmd → State → State

/-- A call of an entry's function: its uri, the key or user it is called with,
if any, and the unpacked message. -/
structure Invocation (Cmd : Type) where
  uri : UInt8
  key : Option UInt32
  cmd : Cmd
  deriving DecidableEq

structure Serving (Cmd State : Type) where
  state : State
  invoked : List (Invocation Cmd)

structure ServerContext (Cmd State : Type) where
  entries : UInt8 → Option (FormEntry Cmd State)
  memory : Serving Cmd State → Stale

section Dispatch
variable {Cmd State : Type}

/-- `CerealMsgHandle::handlePacket`. It catches the exception of a read stream,
which cereal does not throw, to throw it again. -/
def FormEntry.handlePacket (entry : FormEntry Cmd State) (up : Bytes) : Except Exn Cmd :=
  match entry.parse up with
  | some cmd => .ok cmd
  | none => .error .cerealException

def FormEntry.call (entry : FormEntry Cmd State) (uri : UInt8) (sessionId : UInt32) (cmd : Cmd) :
    Option (Invocation Cmd) :=
  if entry.target = false then none
  else
    match entry.type with
    | .fpt_vc | .fpt_vcc => some ⟨uri, none, cmd⟩
    | .fpt_vkc | .fpt_vuc => some ⟨uri, some sessionId, cmd⟩
    | .fpt_null => none

def dispatchMessage (entry : FormEntry Cmd State) (req : JsonRequest) (cmd : Cmd)
    (serving : Serving Cmd State) : Serving Cmd State :=
  match entry.call req.uri req.sessionId cmd with
  | none => serving
  | some call => ⟨entry.proc call.key call.cmd serving.state, serving.invoked ++ [call]⟩

variable (context : ServerContext Cmd State)

/-- The writer it returns is the same on every path. -/
def requestDispatch (req : JsonRequest) (serving : Serving Cmd State) :
    Except Exn (Serving Cmd State) :=
  match context.entries req.uri with
  | none => .ok serving
  | some entry =>
      match entry.handlePacket req.up with
      | .error .readStreamExn => .ok serving
      | .error exn => .error exn
      | .ok cmd => .ok (dispatchMessage entry req cmd serving)

/-- `MsgProtoConsumer::doRequest`; flushing the writer returns zero. -/
def doRequest (serving : Serving Cmd State) (req : JsonRequest) :
    Verdict × Serving Cmd State :=
  match requestDispatch context req serving with
  | .ok after => (.returned 0, after)
  | .error exn => (.threw exn, serving)

def dispatcher : Consumer (Serving Cmd State) := ⟨context.memory, doRequest context⟩

end Dispatch

/-! What a request knows of its frame. -/

/-- The tag in the top three bits of a length word. -/
def protoTag (len : UInt32) : Nat := len.toNat / 2 ^ 29

theorem getProtoType_tag (len : UInt32) :
    protoTag len ≤ 1 ↔ (getProtoType len).1 = .json ∨ (getProtoType len).1 = .bin := by
  have top3Bit : (len >>> PROTO_MAGIC_SHIFT).toNat = protoTag len := by
    have shift : PROTO_MAGIC_SHIFT.toNat % 32 = 29 := rfl
    rw [UInt32.toNat_shiftRight, shift, Nat.shiftRight_eq_div_pow]
    rfl
  have zero : (0 : UInt32).toNat = 0 := rfl
  have one : (1 : UInt32).toNat = 1 := rfl
  simp only [getProtoType, ← UInt32.toNat_inj, top3Bit, zero, one]
  by_cases json : protoTag len = 0
  · simp [json]
  · by_cases bin : protoTag len = 1
    · simp [bin]
    · have beyond : ¬ protoTag len ≤ 1 := by omega
      simp only [json, bin, beyond, ↓reduceIte, false_iff, not_or]
      split <;> simp

theorem popHeader_long (stale : Stale) (proto : PROTO_T) (tagged : proto = .json ∨ proto = .bin)
    (b0 b1 b2 b3 b4 b5 b6 b7 uri : UInt8) (body : Bytes) :
    popHeader (JsonRequest.make stale
        (b0 :: b1 :: b2 :: b3 :: b4 :: b5 :: b6 :: b7 :: uri :: body) proto) =
      .ok ⟨body, proto, XHTONL (loadUint32 b0 b1 b2 b3),
        (XHTONL (loadUint32 b4 b5 b6 b7)).toUInt64, uri⟩ := by
  rcases tagged with json | bin
  · subst json
    rfl
  · subst bin
    rfl

theorem popHeader_short (stale : Stale) (proto : PROTO_T) (tagged : proto = .json ∨ proto = .bin)
    (b0 b1 b2 b3 b4 b5 b6 b7 : UInt8) :
    popHeader (JsonRequest.make stale [b0, b1, b2, b3, b4, b5, b6, b7] proto) =
      .error .readStreamExn := by
  rcases tagged with json | bin
  · subst json
    rfl
  · subst bin
    rfl

theorem popHeader_other (stale : Stale) (frame : Bytes) (proto : PROTO_T)
    (other : ¬ (proto = .json ∨ proto = .bin)) :
    popHeader (JsonRequest.make stale frame proto) = .ok (JsonRequest.make stale frame proto) := by
  cases proto with
  | json => exact absurd (.inl rfl) other
  | bin => exact absurd (.inr rfl) other
  | http => rfl
  | xml => rfl
  | none => rfl
  | max => rfl

theorem header_bytes (frame : Bytes) (long : 8 ≤ frame.length) :
    ∃ b0 b1 b2 b3 b4 b5 b6 b7 rest,
      frame = b0 :: b1 :: b2 :: b3 :: b4 :: b5 :: b6 :: b7 :: rest := by
  match frame with
  | b0 :: b1 :: b2 :: b3 :: b4 :: b5 :: b6 :: b7 :: rest =>
      exact ⟨b0, b1, b2, b3, b4, b5, b6, b7, rest, rfl⟩
  | [] | [_] | [_, _] | [_, _, _] | [_, _, _, _] | [_, _, _, _, _] | [_, _, _, _, _, _]
  | [_, _, _, _, _, _, _] =>
      simp only [List.length_cons, List.length_nil] at long
      omega

/-- The session is the first word of the frame, the uri its ninth byte, and the
payload what comes after. -/
def ReadFrom (frame : Bytes) (request : JsonRequest) : Prop :=
  request.sessionId.toNat =
      bigEndian (frame.getD 0 0) (frame.getD 1 0) (frame.getD 2 0) (frame.getD 3 0) ∧
    frame[8]? = some request.uri ∧ request.up = frame.drop 9

def requestOf (stale : Stale) (frame : Bytes) : Option JsonRequest :=
  (popHeader (JsonRequest.make stale frame (getProtoType (lengthWord frame)).1)).toOption

theorem requestOf_tagged (frame : Bytes) (long : 8 ≤ frame.length)
    (tagged : protoTag (lengthWord frame) ≤ 1) :
    ∃ read, (∀ stale, requestOf stale frame = read) ∧
      ∀ request, read = some request → ReadFrom frame request := by
  have proto := (getProtoType_tag (lengthWord frame)).mp tagged
  simp only [requestOf]
  generalize (getProtoType (lengthWord frame)).1 = known at proto
  obtain ⟨b0, b1, b2, b3, b4, b5, b6, b7, rest, bytes⟩ := header_bytes frame long
  subst bytes
  cases rest with
  | nil =>
      refine ⟨none, ?_, ?_⟩
      · intro stale
        rw [popHeader_short stale known proto]
        rfl
      · intro request made
        cases made
  | cons uri body =>
      refine ⟨some ⟨body, known, XHTONL (loadUint32 b0 b1 b2 b3),
        (XHTONL (loadUint32 b4 b5 b6 b7)).toUInt64, uri⟩, ?_, ?_⟩
      · intro stale
        rw [popHeader_long stale known proto]
        rfl
      · intro request made
        cases made
        exact ⟨read_word b0 b1 b2 b3, rfl, rfl⟩

theorem requestOf_other (stale : Stale) (frame : Bytes)
    (other : ¬ protoTag (lengthWord frame) ≤ 1) :
    requestOf stale frame =
      some (JsonRequest.make stale frame (getProtoType (lengthWord frame)).1) := by
  rw [getProtoType_tag] at other
  rw [requestOf, popHeader_other stale frame _ other]
  rfl

theorem visitFrame_output {World : Type} (consumer : Consumer World) (world : World)
    (frame : Bytes) :
    (visitFrame consumer world frame).output =
      ⟨frame, requestOf (consumer.stale world) frame⟩ := by
  rw [requestOf]
  cases popped : popHeader (JsonRequest.make (consumer.stale world) frame
      (getProtoType (lengthWord frame)).1) with
  | error exn =>
      rw [visitFrame_refused consumer world frame exn popped]
      rfl
  | ok request =>
      rw [visitFrame_popped consumer world frame request popped]
      rcases consumer.doRequest world request with ⟨verdict, after⟩
      cases verdict with
      | returned ret => rfl
      | threw exn => rfl

theorem onData_processed {World : Type} (consumer : Consumer World) (world : World) (buf : Bytes)
    (processed : Processed) (member : processed ∈ (onData consumer world buf).processed) :
    8 ≤ processed.frame.length ∧ ∃ stale, processed.request = requestOf stale processed.frame := by
  rw [(onData_drain consumer buf.length world buf (Nat.le_refl _)).processed] at member
  obtain ⟨before, rest, size, found, output⟩ := drain_outputs _ _ world buf processed member
  obtain ⟨header, within, -⟩ := (wholeFrame_some _ rest size).mp found
  obtain ⟨-, tall, -⟩ := frameSize_some rest size header
  rw [output, visitFrame_output]
  refine ⟨?_, consumer.stale before, rfl⟩
  rw [List.length_take]
  omega

/-- Wherever the frame is processed, the request is read from it; and any two
runs that process it, with whatever memory and input, make the same of it. -/
def DispatchedByHeader (frame : Bytes) : Prop :=
  (∀ (World : Type) (consumer : Consumer World) (world : World) (buf : Bytes) request,
    ⟨frame, some request⟩ ∈ (onData consumer world buf).processed → ReadFrom frame request) ∧
  ∀ (World World' : Type) (consumer : Consumer World) (consumer' : Consumer World')
    (world : World) (world' : World') (buf buf' : Bytes) request request',
    ⟨frame, request⟩ ∈ (onData consumer world buf).processed →
    ⟨frame, request'⟩ ∈ (onData consumer' world' buf').processed → request = request'

theorem onData_frame {World : Type} (consumer : Consumer World) (world : World) (frame : Bytes)
    (complete : frameSize frame = some frame.length) :
    ⟨frame, requestOf (consumer.stale world) frame⟩ ∈ (onData consumer world frame).processed := by
  have found : (frames frame.length).front frame = some frame.length :=
    (wholeFrame_some _ frame _).mpr ⟨complete, Nat.le_refl _, Nat.le_refl _⟩
  rw [(onData_drain consumer frame.length world frame (Nat.le_refl _)).processed,
    drain_some _ _ world frame _ found, List.take_length, visitFrame_output]
  split
  · exact List.mem_cons_self
  · exact List.mem_cons_self

def idle : Consumer Unit := ⟨fun _ => ⟨0, 0, 0⟩, fun _ _ => (.returned 0, ())⟩

/-- A frame is dispatched by its own header exactly when its tag is one of the
two that `popHeader` knows. -/
theorem dispatched_by_header_iff (frame : Bytes)
    (complete : frameSize frame = some frame.length) :
    DispatchedByHeader frame ↔ protoTag (lengthWord frame) ≤ 1 := by
  have long := (frameSize_some frame _ complete).1
  constructor
  · intro dispatched
    by_contra other
    have processed := onData_frame idle () frame complete
    rw [requestOf_other _ frame other] at processed
    obtain ⟨-, -, payload⟩ := dispatched.1 Unit idle () frame _ processed
    have shorter : frame.length = frame.length - 9 := by
      rw [← List.length_drop, ← payload]
      rfl
    omega
  · intro tagged
    obtain ⟨read, same, reads⟩ := requestOf_tagged frame long tagged
    constructor
    · intro World consumer world buf request member
      obtain ⟨-, stale, made⟩ := onData_processed consumer world buf _ member
      exact reads request (by rw [← same stale, ← made])
    · intro World World' consumer consumer' world world' buf buf' request request' member member'
      obtain ⟨-, stale, made⟩ := onData_processed consumer world buf _ member
      obtain ⟨-, stale', made'⟩ := onData_processed consumer' world' buf' _ member'
      calc request = requestOf stale frame := made
        _ = read := same stale
        _ = requestOf stale' frame := (same stale').symm
        _ = request' := made'.symm

def jsonFrame : Bytes := [0, 0, 0, 1, 0, 0, 0, 2, 4, 120]

theorem dispatched_by_header_iff_json : DispatchedByHeader jsonFrame :=
  (dispatched_by_header_iff jsonFrame (by decide)).mpr (by decide)

def httpFrame : Bytes := [0, 0, 0, 1, 64, 0, 0, 2, 4, 120]

def reusing : Consumer Unit := ⟨fun _ => ⟨7, 0, 5⟩, fun _ _ => (.returned 0, ())⟩

theorem http_frame_dispatched_by_memory :
    ¬ DispatchedByHeader httpFrame ∧
      ((onData idle () httpFrame).processed.map fun processed =>
        processed.request.map fun request => (request.uri, request.up)) =
          [some (0, httpFrame)] ∧
      ((onData reusing () httpFrame).processed.map fun processed =>
        processed.request.map fun request => (request.uri, request.up)) =
          [some (5, httpFrame)] := by
  refine ⟨?_, by decide +kernel, by decide +kernel⟩
  intro dispatched
  have processed := onData_frame idle () httpFrame (by decide)
  exact absurd (dispatched.1 Unit idle () httpFrame _ processed).2.2 (by decide)

/-! Frames whose payload cannot be unpacked. -/

/-- A frame that is all there, under a tag that `popHeader` knows. -/
structure TaggedFrame where
  bytes : Bytes
  complete : frameSize bytes = some bytes.length
  tagged : protoTag (lengthWord bytes) ≤ 1

section Handlers
variable {Cmd State : Type} (context : ServerContext Cmd State)

def invocation (frame : TaggedFrame) : Option (Invocation Cmd) := do
  let uri ← frame.bytes[8]?
  let entry ← context.entries uri
  let cmd ← entry.parse (frame.bytes.drop 9)
  entry.call uri (XHTONL (loadUint32 (frame.bytes.getD 0 0) (frame.bytes.getD 1 0)
    (frame.bytes.getD 2 0) (frame.bytes.getD 3 0))) cmd

/-- The frame has a uri, and cereal reads its payload if the uri is registered. -/
def Unpacks (frame : TaggedFrame) : Prop :=
  ∃ uri, frame.bytes[8]? = some uri ∧
    ∀ entry, context.entries uri = some entry → (entry.parse (frame.bytes.drop 9)).isSome

theorem visit_tagged (serving : Serving Cmd State) (frame : TaggedFrame) :
    ((visitFrame (dispatcher context) serving frame.bytes).goesOn = true ↔
        Unpacks context frame) ∧
      (Unpacks context frame →
        (visitFrame (dispatcher context) serving frame.bytes).world.invoked =
          serving.invoked ++ (invocation context frame).toList) := by
  obtain ⟨bytes, complete, tagged⟩ := frame
  have proto := (getProtoType_tag (lengthWord bytes)).mp tagged
  have long := (frameSize_some bytes _ complete).1
  obtain ⟨b0, b1, b2, b3, b4, b5, b6, b7, rest, shape⟩ := header_bytes bytes long
  subst shape
  cases rest with
  | nil =>
      rw [visitFrame_refused _ _ _ _ (popHeader_short _ _ proto b0 b1 b2 b3 b4 b5 b6 b7)]
      simp [Unpacks]
  | cons uri body =>
      rw [visitFrame_popped _ _ _ _ (popHeader_long _ _ proto b0 b1 b2 b3 b4 b5 b6 b7 uri body)]
      simp only [dispatcher, doRequest, requestDispatch, FormEntry.handlePacket, Unpacks, invocation]
      cases registered : context.entries uri with
      | none => simp [registered]
      | some entry =>
          cases parsed : entry.parse body with
          | none => simp [registered, parsed]
          | some cmd =>
              cases called : entry.call uri (XHTONL (loadUint32 b0 b1 b2 b3)) cmd with
              | none => simp [registered, parsed, dispatchMessage, called]
              | some call => simp [registered, parsed, dispatchMessage, called]

theorem visitAll_tagged (serving : Serving Cmd State) (sent : List TaggedFrame) :
    ((visitAll (visitFrame (dispatcher context)) serving (sent.map TaggedFrame.bytes)).left =
        some [] ↔ ∀ frame ∈ sent, Unpacks context frame) ∧
      ((∀ frame ∈ sent, Unpacks context frame) →
        (visitAll (visitFrame (dispatcher context)) serving
          (sent.map TaggedFrame.bytes)).world.invoked =
            serving.invoked ++ sent.filterMap (invocation context)) := by
  induction sent generalizing serving with
  | nil => simp [visitAll]
  | cons frame sent ih =>
      obtain ⟨goesOn, invoked⟩ := visit_tagged context serving frame
      obtain ⟨left, later⟩ := ih (visitFrame (dispatcher context) serving frame.bytes).world
      simp only [List.map_cons, visitAll, List.forall_mem_cons]
      by_cases unpacks : Unpacks context frame
      · rw [if_pos (goesOn.mpr unpacks)]
        refine ⟨?_, ?_⟩
        · rw [left]
          exact (and_iff_right unpacks).symm
        · rintro ⟨-, all⟩
          rw [later all, invoked unpacks, List.filterMap_cons, List.append_assoc]
          cases invocation context frame with
          | none => rfl
          | some call => rfl
      · rw [if_neg fun going => unpacks (goesOn.mp going)]
        simp [unpacks]

theorem tagged_cut (limit : Nat) (frame : TaggedFrame) (fits : frame.bytes.length ≤ limit)
    (more : Bytes) : (frames limit).front (frame.bytes ++ more) = some frame.bytes.length := by
  have within : frame.bytes.length ≤ (frame.bytes ++ more).length := by
    rw [List.length_append]
    exact Nat.le_add_right _ _
  exact (wholeFrame_some limit _ _).mpr
    ⟨frameSize_append _ more _ frame.complete, within, fits⟩

/-- Behind a frame that does not fit, more is left than the buffer holds. -/
theorem drain_oversized (limit : Nat) (serving : Serving Cmd State) (sent : List TaggedFrame)
    (oversized : ∃ frame ∈ sent, limit < frame.bytes.length) (rest : Bytes)
    (left : (drain (frames limit) (visitFrame (dispatcher context)) serving
      (sent.map TaggedFrame.bytes).flatten).left = some rest) : limit < rest.length := by
  induction sent generalizing serving with
  | nil =>
      obtain ⟨frame, member, -⟩ := oversized
      cases member
  | cons frame sent ih =>
      rw [List.map_cons, List.flatten_cons] at left
      by_cases fits : frame.bytes.length ≤ limit
      · rw [drain_some _ _ _ _ _ (tagged_cut limit frame fits _), List.take_left,
          List.drop_left] at left
        split at left
        · apply ih _ _ left
          obtain ⟨large, member, larger⟩ := oversized
          rcases List.mem_cons.mp member with same | behind
          · subst same
            exact absurd fits (Nat.not_le.mpr larger)
          · exact ⟨large, behind, larger⟩
        · cases left
      · have stuck : Overlong limit (frame.bytes ++ (sent.map TaggedFrame.bytes).flatten) :=
          ⟨frame.bytes.length, frameSize_append _ _ _ frame.complete, Nat.not_le.mp fits⟩
        rw [drain_none _ _ _ _ (wholeFrame_overlong limit _ stuck)] at left
        cases left
        rw [List.length_append]
        omega

def Acceptable (frame : TaggedFrame) : Prop :=
  frame.bytes.length ≤ inputLimit ∧ Unpacks context frame

/-- Whole frames that arrive in whatever pieces leave the connection open, with
each call made once and in order, exactly when every one of them fits the buffer,
has a uri, and can be unpacked if the uri is registered. -/
theorem handlers_invoked_iff (state : State) (sent : List TaggedFrame) (pieces : List Bytes)
    (stream : pieces.flatten = (sent.map TaggedFrame.bytes).flatten)
    (delivers : Throughout (receiving (dispatcher context)) Program.perform Delivers
      (Connection.fresh ⟨state, []⟩) pieces) :
    ((runAll (receiving (dispatcher context)) Program.perform
          (Connection.fresh ⟨state, []⟩) pieces).isOpen = true ∧
        (runAll (receiving (dispatcher context)) Program.perform
          (Connection.fresh ⟨state, []⟩) pieces).world.invoked =
            sent.filterMap (invocation context)) ↔
      ∀ frame ∈ sent, Acceptable context frame := by
  have follows := follows_runAll (dispatcher context) ⟨state, []⟩ [] (Connection.fresh ⟨state, []⟩)
    pieces (follows_fresh _ _) delivers
  rw [List.nil_append, stream] at follows
  generalize runAll (receiving (dispatcher context)) Program.perform
    (Connection.fresh ⟨state, []⟩) pieces = conn at follows ⊢
  by_cases fit : ∀ frame ∈ sent, frame.bytes.length ≤ inputLimit
  · obtain ⟨left, invoked⟩ := visitAll_tagged context ⟨state, []⟩ sent
    have drained := drain_units (frames inputLimit) (visitFrame (dispatcher context)) ⟨state, []⟩
      (sent.map TaggedFrame.bytes) (by
        intro piece member more
        obtain ⟨frame, inside, same⟩ := List.mem_map.mp member
        subst same
        exact tagged_cut inputLimit frame (fit frame inside) more)
    constructor
    · rintro ⟨opened, -⟩ frame member
      have content := (follows.opened opened).2
      rw [drained] at content
      rw [visitAll_left _ _ _ _ content] at content
      exact ⟨fit frame member, left.mp content frame member⟩
    · intro acceptable
      have all : ∀ frame ∈ sent, Unpacks context frame := fun frame member =>
        (acceptable frame member).2
      have nothing := left.mpr all
      cases shut : conn.isOpen with
      | false =>
          obtain ⟨size, found, -⟩ := follows.closed shut [] (by rw [drained, nothing])
          cases found
      | true =>
          refine ⟨rfl, ?_⟩
          rw [(follows.opened shut).1, drained, invoked all]
          rfl
  · push Not at fit
    constructor
    · rintro ⟨opened, -⟩
      have content := (follows.opened opened).2
      have more := drain_oversized context inputLimit ⟨state, []⟩ sent fit _ content
      exact absurd (input_length conn._input) (Nat.not_le.mpr more)
    · intro acceptable
      obtain ⟨frame, member, larger⟩ := fit
      exact absurd (acceptable frame member).1 (Nat.not_le.mpr larger)

end Handlers

/-- Registers the uri 4 for the message `{}`, which it is called with. -/
def emptyObject : ServerContext Unit Unit where
  entries := fun uri =>
    if uri = 4 then
      some ⟨fun up => if up = [123, 125] then some () else none, .fpt_vcc, true, fun _ _ state => state⟩
    else none
  memory := fun _ => ⟨0, 0, 0⟩

def objectFrame : TaggedFrame :=
  ⟨[0, 0, 0, 1, 0, 0, 0, 3, 4, 123, 125], by decide, by decide⟩

def strayFrame : TaggedFrame := ⟨[0, 0, 0, 2, 0, 0, 0, 1, 9], by decide, by decide⟩

def brokenFrame : TaggedFrame := ⟨jsonFrame, by decide, by decide⟩

def delivered (sent : List TaggedFrame) (first : Nat) : List Bytes :=
  [(sent.map TaggedFrame.bytes).flatten.take first, (sent.map TaggedFrame.bytes).flatten.drop first]

theorem handlers_invoked_iff_object :
    (runAll (receiving (dispatcher emptyObject)) Program.perform (Connection.fresh ⟨(), []⟩)
        (delivered [objectFrame, strayFrame, objectFrame] 7)).world.invoked =
      [⟨4, none, ()⟩, ⟨4, none, ()⟩] := by
  have delivers : Throughout (receiving (dispatcher emptyObject)) Program.perform Delivers
      (Connection.fresh ⟨(), []⟩) (delivered [objectFrame, strayFrame, objectFrame] 7) := by
    refine ⟨fun _ _ => ⟨by decide, ?_⟩, fun _ _ => ⟨by decide, ?_⟩, trivial⟩
    all_goals decide +kernel
  have object : Acceptable emptyObject objectFrame := by
    refine ⟨by decide, 4, rfl, ?_⟩
    intro entry found
    cases found
    rfl
  have stray : Acceptable emptyObject strayFrame := by
    refine ⟨by decide, 9, rfl, ?_⟩
    intro entry found
    cases found
  exact ((handlers_invoked_iff emptyObject () [objectFrame, strayFrame, objectFrame]
    (delivered [objectFrame, strayFrame, objectFrame] 7) (by decide) delivers).mpr
      (by simp [object, stray])).2

/-- The message behind a payload that is not JSON is lost, and the connection
with it. -/
theorem broken_payload_closes :
    Throughout (receiving (dispatcher emptyObject)) Program.perform Delivers
        (Connection.fresh ⟨(), []⟩) (delivered [brokenFrame, objectFrame] 7) ∧
      (runAll (receiving (dispatcher emptyObject)) Program.perform (Connection.fresh ⟨(), []⟩)
        (delivered [brokenFrame, objectFrame] 7)).isOpen = false ∧
      (runAll (receiving (dispatcher emptyObject)) Program.perform (Connection.fresh ⟨(), []⟩)
        (delivered [brokenFrame, objectFrame] 7)).world.invoked = [] ∧
      [brokenFrame, objectFrame].filterMap (invocation emptyObject) = [⟨4, none, ()⟩] := by
  refine ⟨⟨fun _ _ => ⟨by decide, ?_⟩, fun _ _ => ⟨by decide, ?_⟩, trivial⟩, ?_, ?_, ?_⟩
  all_goals decide +kernel

end FPayNode.RequestDispatch
