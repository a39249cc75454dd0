import FPayNode.SenderFrames
import FPayNode.BlockMemory

/-!
`core/base/Sender.cpp`: senders as objects that are built, written to, cleared,
packed, copied and assigned. With each object goes what was marshalled into it,
which is what its body should be. A write that the buffer refuses, or an object
that cannot be marshalled, is an exception; what was written before it stays.
-/

namespace FPayNode.SenderObjects

open CommandProgram DecimalText ByteStream BlockBuffers JsonFrames SenderFrames

/-- The bytes that `marshal` writes one after the other, and whether it then
throws by itself. -/
structure Marshallable where
  pieces : List Bytes
  throws : Bool

/-- The fields of a header that no constructor sets. -/
structure HeaderMemory where
  len : UInt64
  uri : UInt8
  resCode : UInt16
  appId : UInt16

def RES_OK : UInt16 := 200

/-- The session belongs to a `JsonSender`. -/
structure Sender where
  pb : PackBuffer
  hpk : Nat
  pk : Nat
  len : UInt64
  uri : UInt8
  resCode : UInt16
  appId : UInt16
  sessionId : Option UInt32

namespace Sender

/-- A buffer with room for the header, and the two streams on it. -/
def blank (memory : HeaderMemory) (sessionId : Option UInt32) : Option Sender := do
  let (pb, hpk) ← writeStream BlockBuffer.fresh 0
  let (pb, pk) ← writeStream pb HEADER_SIZE
  pure ⟨pb, hpk, pk, memory.len, memory.uri, memory.resCode, memory.appId, sessionId⟩

/-- `pk.size()`, a difference of two `size_t`. -/
def bodySize (sender : Sender) : UInt64 :=
  UInt64.ofNat sender.pb.size - UInt64.ofNat sender.pk

/-- The bytes at `pk.data()`. -/
def body (sender : Sender) : Bytes :=
  (sender.pb.content.drop sender.pk).take sender.bodySize.toNat

end Sender

/-- An object, and the bytes that were marshalled into it since it was cleared. -/
structure Tracked where
  sender : Sender
  marshalled : Bytes

/-- What a write leaves, and whether no exception ended it. -/
structure Written where
  pb : PackBuffer
  bytes : Bytes
  completed : Bool

def writePieces (pb : PackBuffer) : List Bytes → Written
  | [] => ⟨pb, [], true⟩
  | piece :: pieces =>
      match pb.append piece with
      | none => ⟨pb, [], false⟩
      | some after =>
          ⟨(writePieces after pieces).pb, piece ++ (writePieces after pieces).bytes,
            (writePieces after pieces).completed⟩

def marshal (obj : Marshallable) (pb : PackBuffer) : Written :=
  { writePieces pb obj.pieces with
    completed := (writePieces pb obj.pieces).completed && !obj.throws }

/-- `Sender::marshall`, with the uri that the call sets, if it has one. -/
def marshall (uri : Option UInt8) (obj : Marshallable) (object : Tracked) : Tracked × Bool :=
  let written := marshal obj object.sender.pb
  (⟨{ object.sender with pb := written.pb, uri := uri.getD object.sender.uri },
    object.marshalled ++ written.bytes⟩, written.completed)

inductive Construction where
  | sender
  | senderWith (uri : UInt8) (obj : Marshallable)
  | jsonSender
  | jsonSenderWith (uri : UInt8) (obj : Marshallable)
  | jsonSenderFor (sessionId : UInt32) (uri : UInt8) (obj : Marshallable)

def Construction.sessionId : Construction → Option UInt32
  | .sender | .senderWith _ _ => none
  | .jsonSender | .jsonSenderWith _ _ => some (-1)
  | .jsonSenderFor sessionId _ _ => some sessionId

/-- What the constructors marshal, in order: the last one marshals its object
once in `Sender` and once more itself. -/
def Construction.marshalls : Construction → List (UInt8 × Marshallable)
  | .sender | .jsonSender => []
  | .senderWith uri obj | .jsonSenderWith uri obj => [(uri, obj)]
  | .jsonSenderFor _ uri obj => [(uri, obj), (uri, obj)]

def marshallEach (object : Tracked) : List (UInt8 × Marshallable) → Option Tracked
  | [] => some object
  | (uri, obj) :: rest =>
      match marshall (some uri) obj object with
      | (after, true) => marshallEach after rest
      | (_, false) => none

/-- None when an exception leaves the constructor. -/
def construct (memory : HeaderMemory) (construction : Construction) : Option Tracked := do
  let sender ← Sender.blank memory construction.sessionId
  marshallEach ⟨sender, []⟩ construction.marshalls

/-- `JsonSender::endPack`; a plain sender has another one. -/
def endPack (object : Tracked) : Tracked :=
  match object.sender.sessionId with
  | none => object
  | some sessionId =>
      match JsonSender.endPack ⟨object.sender.pb, object.sender.hpk, object.sender.pk,
          object.sender.len, object.sender.uri, sessionId⟩ with
      -- The buffer can always take the nine bytes.
      | none => object
      | some packed => { object with sender := { object.sender with pb := packed.pb } }

def clear (object : Tracked) : Tracked :=
  match object.sender.pb.resize HEADER_SIZE 0 with
  | none => object
  | some pb => ⟨{ object.sender with pb := pb, resCode := RES_OK, appId := 0 }, []⟩

/-- `pk.writeByte(s.pk.data(), s.pk.size())`. A size that wrapped around is more
than any buffer takes, so that no byte is read then. -/
def writeBody (pb : PackBuffer) (source : Sender) : Option PackBuffer :=
  if source.bodySize.toNat ≤ 65536 * (16 * 1024) then pb.append source.body else none

/-- The copy constructors; one of `Sender` leaves the session behind, and no
one sets the id of the application. -/
def copy (memory : HeaderMemory) (sliced : Bool) (source : Tracked) : Option Tracked := do
  let sender ← Sender.blank memory (if sliced then none else source.sender.sessionId)
  let pb ← writeBody sender.pb source.sender
  pure ⟨{ sender with
    pb := pb
    len := source.sender.len
    uri := source.sender.uri
    resCode := source.sender.resCode }, source.marshalled⟩

/-- `operator =` up to the write: the buffer is emptied, with the header. -/
def emptied (target source : Sender) : Option Sender := do
  let pb ← target.pb.resize 0 0
  pure { target with pb := pb, len := source.len, uri := source.uri, resCode := source.resCode }

/-- `JsonSender` assigns its session after `Sender` is assigned. -/
def assign (target source : Tracked) (self : Bool) : Tracked :=
  match emptied target.sender source.sender with
  | none => target
  | some left =>
      match writeBody left.pb (if self then left else source.sender) with
      | none => { target with sender := left }
      | some pb =>
          ⟨{ left with
            pb := pb
            sessionId := left.sessionId.map fun session =>
              source.sender.sessionId.getD session }, source.marshalled⟩

/-! Any number of objects, named by their place. -/

inductive SenderCall where
  | construct (memory : HeaderMemory) (construction : Construction)
  | marshall (object : Nat) (uri : Option UInt8) (obj : Marshallable)
  | endPack (object : Nat)
  | clear (object : Nat)
  | copy (memory : HeaderMemory) (sliced : Bool) (source : Nat)
  | assign (target source : Nat)

def senders : Machine SenderCall Unit (List Tracked)
  | .construct memory construction, objects =>
      ((), objects ++ (construct memory construction).toList)
  | .marshall object uri obj, objects =>
      ((), objects.modify object fun old => (marshall uri obj old).1)
  | .endPack object, objects => ((), objects.modify object endPack)
  | .clear object, objects => ((), objects.modify object clear)
  | .copy memory sliced source, objects =>
      ((), objects ++ (objects[source]?.bind (copy memory sliced)).toList)
  | .assign target source, objects =>
      ((), match objects[source]? with
        | none => objects
        | some origin => objects.modify target fun old => assign old origin (target = source))

/-! One object. -/

/-- The header has room, the size of the body did not wrap around, and the body
is what was marshalled. -/
def Holds (object : Tracked) : Prop :=
  HEADER_SIZE ≤ object.sender.pb.size ∧
    object.sender.bodySize.toNat = object.marshalled.length ∧
    object.sender.body = object.marshalled

/-- Nine bytes, and what was marshalled. -/
structure Laid (object : Tracked) : Prop where
  pk : object.sender.pk = HEADER_SIZE
  size : object.sender.pb.content.length = HEADER_SIZE + object.marshalled.length
  body : object.sender.pb.content.drop HEADER_SIZE = object.marshalled

theorem bodySize_toNat (sender : Sender) (pk : sender.pk = HEADER_SIZE)
    (header : HEADER_SIZE ≤ sender.pb.size) :
    sender.bodySize.toNat = sender.pb.size - HEADER_SIZE := by
  have within : sender.pb.content.length ≤ 65536 * (16 * 1024) :=
    BlockMemory.content_within sender.pb
  have nine : HEADER_SIZE = 9 := rfl
  rw [BlockBuffer.size] at header
  rw [Sender.bodySize, BlockBuffer.size, pk, UInt64.toNat_sub_of_le, UInt64.toNat_ofNat_of_lt',
    UInt64.toNat_ofNat_of_lt']
  · decide
  · rw [UInt64.size]
    omega
  · rw [UInt64.le_iff_toNat_le, UInt64.toNat_ofNat_of_lt', UInt64.toNat_ofNat_of_lt']
    · exact header
    · rw [UInt64.size]
      omega
    · decide

/-- Below the header the size of the body wraps around. -/
theorem bodySize_wraps (sender : Sender) (pk : sender.pk = HEADER_SIZE)
    (short : sender.pb.size < HEADER_SIZE) : 65536 * (16 * 1024) < sender.bodySize.toNat := by
  have nine : HEADER_SIZE = 9 := rfl
  have size : (UInt64.ofNat sender.pb.size).toNat = sender.pb.size :=
    UInt64.toNat_ofNat_of_lt' (by rw [UInt64.size]; omega)
  have header : (UInt64.ofNat HEADER_SIZE).toNat = 9 := rfl
  rw [Sender.bodySize, pk, UInt64.toNat_sub, size, header]
  omega

theorem laid_iff (object : Tracked) (pk : object.sender.pk = HEADER_SIZE) :
    Laid object ↔ Holds object := by
  constructor
  · intro laid
    have header : HEADER_SIZE ≤ object.sender.pb.size := by
      rw [BlockBuffer.size, laid.size]
      exact Nat.le_add_right _ _
    have size : object.sender.bodySize.toNat = object.marshalled.length := by
      rw [bodySize_toNat object.sender pk header, BlockBuffer.size, laid.size,
        Nat.add_sub_cancel_left]
    refine ⟨header, size, ?_⟩
    rw [Sender.body, pk, laid.body, size, List.take_length]
  · rintro ⟨header, size, body⟩
    have whole := bodySize_toNat object.sender pk header
    rw [BlockBuffer.size] at header whole
    refine ⟨pk, by omega, ?_⟩
    rw [Sender.body, pk, whole, ← List.length_drop, List.take_length] at body
    exact body

theorem blank_some (memory : HeaderMemory) (sessionId : Option UInt32) :
    ∃ sender, Sender.blank memory sessionId = some sender ∧ sender.hpk = 0 ∧
      Laid ⟨sender, []⟩ := by
  obtain ⟨empty, first, nothing⟩ := writeStream_some BlockBuffer.fresh 0 (by decide)
  have none : empty.content = [] := nothing
  obtain ⟨zeros, second, blank⟩ := writeStream_some empty HEADER_SIZE (by rw [none]; decide)
  rw [none] at second blank
  refine ⟨⟨zeros, 0, 9, memory.len, memory.uri, memory.resCode, memory.appId, sessionId⟩, ?_, ?_⟩
  · simp only [Sender.blank, Option.bind_eq_bind, first, Option.bind_some, second]
    rfl
  · refine ⟨rfl, rfl, ?_, ?_⟩
    · rw [blank]
      rfl
    · rw [blank]
      rfl

theorem writePieces_content (pieces : List Bytes) (pb : PackBuffer) :
    (writePieces pb pieces).pb.content = pb.content ++ (writePieces pb pieces).bytes := by
  induction pieces generalizing pb with
  | nil => exact (List.append_nil _).symm
  | cons piece pieces ih =>
      simp only [writePieces]
      split
      · exact (List.append_nil _).symm
      · next after appended =>
          rw [ih, BlockMemory.append_content pb after piece appended, List.append_assoc]

/-- A write that no exception ends has written every piece. -/
theorem writePieces_completed (pieces : List Bytes) (pb : PackBuffer)
    (completed : (writePieces pb pieces).completed = true) :
    (writePieces pb pieces).bytes = pieces.flatten := by
  induction pieces generalizing pb with
  | nil => rfl
  | cons piece pieces ih =>
      simp only [writePieces] at completed ⊢
      split at completed
      · cases completed
      · next after appended =>
          rw [ih after completed, List.flatten_cons]

theorem writePieces_fits (pieces : List Bytes) (pb : PackBuffer)
    (room : pb.content.length + pieces.flatten.length ≤ 65536 * (16 * 1024)) :
    (writePieces pb pieces).completed = true := by
  induction pieces generalizing pb with
  | nil => rfl
  | cons piece pieces ih =>
      rw [List.flatten_cons, List.length_append] at room
      obtain ⟨after, appended, content⟩ := pb.append_some piece (by
        rw [List.length_append]
        omega)
      simp only [writePieces, appended]
      apply ih
      rw [content, List.length_append]
      omega

theorem marshall_laid (uri : Option UInt8) (obj : Marshallable) (object : Tracked)
    (laid : Laid object) : Laid (marshall uri obj object).1 := by
  have content := writePieces_content obj.pieces object.sender.pb
  refine ⟨laid.pk, ?_, ?_⟩
  · simp only [marshall, marshal]
    rw [content, List.length_append, List.length_append, laid.size, Nat.add_assoc]
  · have header : HEADER_SIZE ≤ object.sender.pb.content.length := by
      rw [laid.size]
      exact Nat.le_add_right _ _
    simp only [marshall, marshal]
    rw [content, List.drop_append_of_le_length header, laid.body]

theorem marshallEach_laid (objs : List (UInt8 × Marshallable)) (object after : Tracked)
    (laid : Laid object) (done : marshallEach object objs = some after) : Laid after := by
  induction objs generalizing object with
  | nil =>
      cases done
      exact laid
  | cons first rest ih =>
      obtain ⟨uri, obj⟩ := first
      simp only [marshallEach] at done
      split at done
      · next next_ marshalled =>
          have kept := marshall_laid (some uri) obj object laid
          rw [marshalled] at kept
          exact ih next_ kept done
      · cases done

theorem construct_laid (memory : HeaderMemory) (construction : Construction) (object : Tracked)
    (made : construct memory construction = some object) : Laid object := by
  obtain ⟨sender, blank, -, laid⟩ := blank_some memory construction.sessionId
  simp only [construct, blank, Option.bind_eq_bind, Option.bind_some] at made
  exact marshallEach_laid construction.marshalls ⟨sender, []⟩ object laid made

/-- A replacement inside the header leaves the rest. -/
theorem replace_header (pb : PackBuffer) (pos : Nat) (rep : Bytes) (nonempty : rep ≠ [])
    (header : HEADER_SIZE ≤ pb.content.length) (inside : pos + rep.length ≤ HEADER_SIZE) :
    ∃ after, pb.replace pos rep = some after ∧
      after.content.length = pb.content.length ∧
      after.content.drop HEADER_SIZE = pb.content.drop HEADER_SIZE := by
  obtain ⟨after, replaced, content⟩ := pb.replace_some pos rep nonempty (inside.trans header)
  have front : (pb.content.take pos ++ rep).length = pos + rep.length := by
    rw [List.length_append, List.length_take_of_le (by omega)]
  refine ⟨after, replaced, ?_, ?_⟩
  · rw [content, List.length_append, front, List.length_drop]
    omega
  · rw [content, List.drop_append, front, List.drop_drop, List.drop_eq_nil_of_le (by omega),
      List.nil_append, Nat.add_sub_of_le inside]

theorem endPack_laid (object : Tracked) (laid : Laid object) : Laid (endPack object) := by
  have header : HEADER_SIZE ≤ object.sender.pb.content.length := by
    rw [laid.size]
    exact Nat.le_add_right _ _
  simp only [endPack]
  split
  · exact laid
  · next sessionId _ =>
      obtain ⟨pb1, first, size1, body1⟩ := replace_header object.sender.pb 0
        (storeUint32 (XHTONL sessionId)) (List.cons_ne_nil _ _) header (Nat.le_of_ble_eq_true rfl)
      obtain ⟨pb2, second, size2, body2⟩ := replace_header pb1 4
        (storeUint32 (XHTONL object.sender.len.toUInt32)) (List.cons_ne_nil _ _)
        (size1.symm ▸ header) (Nat.le_of_ble_eq_true rfl)
      obtain ⟨pb3, third, size3, body3⟩ := replace_header pb2 8 [object.sender.uri]
        (List.cons_ne_nil _ _) ((size2.trans size1).symm ▸ header) (Nat.le_of_ble_eq_true rfl)
      obtain ⟨pb4, fourth, size4, body4⟩ := replace_header pb3 4
        (storeUint32 (XHTONL (UInt32.ofNat (1 + (pb3.size - object.sender.pk)))))
        (List.cons_ne_nil _ _) ((size3.trans (size2.trans size1)).symm ▸ header)
        (Nat.le_of_ble_eq_true rfl)
      have packed : JsonSender.endPack ⟨object.sender.pb, object.sender.hpk, object.sender.pk,
          object.sender.len, object.sender.uri, sessionId⟩ =
          some ⟨pb4, object.sender.hpk, object.sender.pk, object.sender.len, object.sender.uri,
            sessionId⟩ := by
        simp only [JsonSender.endPack, replaceUint32, replaceUint8, first, second, third, fourth,
          Option.bind_eq_bind, Option.bind_some, Option.pure_def]
      rw [packed]
      refine ⟨laid.pk, ?_, ?_⟩
      · change pb4.content.length = _
        rw [size4, size3, size2, size1, laid.size]
      · change pb4.content.drop HEADER_SIZE = _
        rw [body4, body3, body2, body1, laid.body]

theorem clear_laid (object : Tracked) (laid : Laid object) : Laid (clear object) := by
  have header : HEADER_SIZE ≤ object.sender.pb.content.length := by
    rw [laid.size]
    exact Nat.le_add_right _ _
  obtain ⟨pb, resized, content⟩ := BlockMemory.resize_padded object.sender.pb HEADER_SIZE 0
    (by decide)
  have nine : pb.content = object.sender.pb.content.take HEADER_SIZE := by
    rw [content, BlockMemory.padded, Nat.sub_eq_zero_of_le header, List.replicate_zero,
      List.append_nil]
  simp only [clear, resized]
  refine ⟨laid.pk, ?_, ?_⟩
  · rw [nine, List.length_take_of_le header]
    rfl
  · rw [nine]
    exact List.drop_eq_nil_of_le (List.length_take_le _ _)

/-- What is read from an object that is laid out is its body. -/
theorem writeBody_laid (pb : PackBuffer) (source : Tracked) (laid : Laid source) :
    writeBody pb source.sender = pb.append source.marshalled := by
  obtain ⟨-, size, body⟩ := (laid_iff source laid.pk).mp laid
  have within : source.sender.pb.content.length ≤ 65536 * (16 * 1024) :=
    BlockMemory.content_within source.sender.pb
  rw [laid.size] at within
  rw [writeBody, if_pos (by omega), body]

theorem copy_laid (memory : HeaderMemory) (sliced : Bool) (source object : Tracked)
    (laid : Laid source) (copied : copy memory sliced source = some object) : Laid object := by
  obtain ⟨sender, blank, -, fresh⟩ := blank_some memory
    (if sliced then none else source.sender.sessionId)
  simp only [copy, blank, Option.bind_eq_bind, Option.bind_some] at copied
  rw [writeBody_laid sender.pb source laid] at copied
  cases appended : sender.pb.append source.marshalled with
  | none =>
      rw [appended] at copied
      cases copied
  | some pb =>
      rw [appended] at copied
      cases copied
      have content := BlockMemory.append_content sender.pb pb source.marshalled appended
      have header : sender.pb.content.length = HEADER_SIZE := fresh.size
      refine ⟨fresh.pk, ?_, ?_⟩
      · change pb.content.length = _
        rw [content, List.length_append, header]
      · change pb.content.drop HEADER_SIZE = _
        rw [content, ← header, List.drop_left]

theorem emptied_some (target source : Sender) :
    ∃ left, emptied target source = some left ∧ left.pb.content = [] ∧ left.pk = target.pk := by
  obtain ⟨pb, resized, content⟩ := BlockMemory.resize_padded target.pb 0 0 (Nat.zero_le _)
  rw [BlockMemory.padded, List.take_zero, Nat.zero_sub, List.replicate_zero,
    List.append_nil] at content
  refine ⟨{ target with
    pb := pb, len := source.len, uri := source.uri, resCode := source.resCode }, ?_, content, rfl⟩
  simp only [emptied, resized, Option.bind_eq_bind, Option.bind_some, Option.pure_def]

theorem headerless_breaks (object : Tracked) (pk : object.sender.pk = HEADER_SIZE)
    (content : object.sender.pb.content = object.marshalled) : ¬ Holds object := by
  rintro ⟨header, size, -⟩
  rw [bodySize_toNat object.sender pk header] at size
  simp only [BlockBuffer.size, content, HEADER_SIZE] at header size
  omega

/-- An object that was assigned has no header left, so its body cannot be that
of the other. -/
theorem assign_breaks (target source : Tracked) (self : Bool) (laid : Laid target)
    (sourceLaid : Laid source) : ¬ Holds (assign target source self) := by
  obtain ⟨left, cut, empty, pk⟩ := emptied_some target.sender source.sender
  have short : ¬ HEADER_SIZE ≤ left.pb.size := by
    rw [BlockBuffer.size, empty]
    decide
  simp only [assign, cut]
  split
  · exact fun held => short held.1
  · next pb written =>
      cases self with
      | true =>
          -- The source was emptied with the target, and the size of its body wraps.
          have wraps := bodySize_wraps left (pk.trans laid.pk) (Nat.not_le.mp short)
          simp only [↓reduceIte, writeBody, if_neg (Nat.not_le.mpr wraps)] at written
          cases written
      | false =>
          rw [if_neg Bool.false_ne_true, writeBody_laid left.pb source sourceLaid] at written
          have content := BlockMemory.append_content left.pb pb source.marshalled written
          rw [empty, List.nil_append] at content
          exact headerless_breaks _ (pk.trans laid.pk) content

/-! Runs. -/

def AllLaid (objects : List Tracked) : Prop := ∀ object ∈ objects, Laid object

/-- Every object holds what it should after the call. -/
def Kept (objects : List Tracked) (call : SenderCall) : Prop :=
  ∀ object ∈ (senders call objects).2, Holds object

/-- No object is assigned. -/
def NoAssignment (objects : List Tracked) : SenderCall → Prop
  | .assign target source => ¬ (target < objects.length ∧ source < objects.length)
  | _ => True

theorem modify_all {Entry : Type} (holds : Entry → Prop) (entries : List Entry) (place : Nat)
    (change : Entry → Entry) (before : ∀ entry ∈ entries, holds entry)
    (kept : ∀ entry, holds entry → holds (change entry)) :
    ∀ entry ∈ entries.modify place change, holds entry := by
  intro entry member
  obtain ⟨index, found⟩ := List.mem_iff_getElem?.mp member
  rw [List.getElem?_modify] at found
  cases old : entries[index]? with
  | none =>
      rw [old] at found
      cases found
  | some first =>
      have was := before first (List.mem_of_getElem? old)
      rw [old] at found
      simp only [Option.map_eq_map, Option.map_some, Option.some.injEq] at found
      split at found
      · exact found ▸ kept first was
      · exact found ▸ was

theorem senders_laid (objects : List Tracked) (call : SenderCall) (laid : AllLaid objects)
    (unassigned : NoAssignment objects call) : AllLaid (senders call objects).2 := by
  cases call with
  | construct memory construction =>
      intro object member
      rcases List.mem_append.mp member with old | new
      · exact laid object old
      · exact construct_laid memory construction object (Option.mem_toList.mp new)
  | marshall object uri obj => exact modify_all Laid objects object _ laid (marshall_laid uri obj)
  | endPack object => exact modify_all Laid objects object _ laid endPack_laid
  | clear object => exact modify_all Laid objects object _ laid clear_laid
  | copy memory sliced source =>
      intro object member
      rcases List.mem_append.mp member with old | new
      · exact laid object old
      · obtain ⟨original, found, copied⟩ := Option.bind_eq_some_iff.mp (Option.mem_toList.mp new)
        exact copy_laid memory sliced original object
          (laid original (List.mem_of_getElem? found)) copied
  | assign target source =>
      simp only [senders]
      split
      · exact laid
      · next origin found =>
          -- The source is there, so the target is no object.
          obtain ⟨inside, -⟩ := List.getElem?_eq_some_iff.mp found
          have outside : objects.length ≤ target :=
            Nat.not_lt.mp fun within => unassigned ⟨within, inside⟩
          rw [List.modify_eq_self outside]
          exact laid

theorem kept_iff_unassigned (objects : List Tracked) (call : SenderCall) (laid : AllLaid objects) :
    Kept objects call ↔ NoAssignment objects call := by
  constructor
  · intro kept
    cases call with
    | assign target source =>
        rintro ⟨inside, sourceInside⟩
        have found : objects[source]? = some objects[source] :=
          List.getElem?_eq_getElem sourceInside
        have result : (senders (.assign target source) objects).2[target]? =
            some (assign objects[target] objects[source] (target = source)) := by
          simp only [senders, found, List.getElem?_modify, ↓reduceIte,
            List.getElem?_eq_getElem inside, Option.map_some, Option.map_eq_map]
        exact assign_breaks _ _ _ (laid _ (List.getElem_mem inside))
          (laid _ (List.getElem_mem sourceInside)) (kept _ (List.mem_of_getElem? result))
    | _ => exact trivial
  · intro unassigned object member
    have after := senders_laid objects call laid unassigned object member
    exact (laid_iff object after.pk).mp after

/-- From no objects at all: every object has its header and the body it should
have, after every call, exactly when no call assigns one. -/
theorem senders_keep_bodies_iff (calls : List SenderCall) :
    Throughout senders Program.perform Kept [] calls ↔
      Throughout senders Program.perform NoAssignment [] calls := by
  apply throughout_congr senders Program.perform AllLaid fun _ => True
  · exact fun objects call laid _ => kept_iff_unassigned objects call laid
  · exact fun objects call laid kept =>
      senders_laid objects call laid ((kept_iff_unassigned objects call laid).mp kept)
  · exact fun object member => absurd member List.not_mem_nil
  · exact fun _ _ => trivial

/-- An empty sender is assigned a sender with three bytes. -/
def assigned : List SenderCall :=
  [.construct ⟨0, 0, 0, 0⟩ .jsonSender,
    .construct ⟨0, 0, 0, 0⟩ (.jsonSenderWith 1 ⟨[[97, 98, 99]], false⟩), .assign 0 1]

theorem assigned_sender_loses_header :
    ¬ Throughout senders Program.perform Kept [] assigned ∧
      ∃ object, (runAll senders Program.perform [] assigned)[0]? = some object ∧
        object.marshalled = [97, 98, 99] ∧ object.sender.pb.content = [97, 98, 99] ∧
        object.sender.bodySize = 0xFFFFFFFFFFFFFFFA := by
  constructor
  · rintro ⟨-, -, kept, -⟩
    have short := (kept _ (List.mem_of_getElem? (i := 0) rfl)).1
    exact absurd short (by decide +kernel)
  · exact ⟨_, rfl, by decide +kernel, by decide +kernel, by decide +kernel⟩

end FPayNode.SenderObjects
