import FPayNode.BinaryValues
import FPayNode.BlockMemory
import FPayNode.SenderFrames

/-!
`core/base/ByteStream.h`: writing values behind each other into a pack buffer,
and reading them from memory. The read stream is a pointer and the number of
bytes behind it. The addresses that are read are recorded, in their order; no
function of the source looks at that record.
-/

namespace FPayNode.BinaryStream

open DecimalText ByteStream KeyedLists BlockBuffers SenderFrames BinaryValues

/-! Writing. -/

/-- None is a `WriteStreamExn`. -/
abbrev Writer (Value : Type) := Value → PackBuffer → Option PackBuffer

def writeByte : Writer Bytes := fun s m_buffer => m_buffer.append s

def writeUint8 : Writer UInt8 := fun u8 => writeByte [u8]

def writeUint16 : Writer UInt16 := fun u16 => writeByte (storeUint16 (XHTONS u16))

def writeUint32 : Writer UInt32 := fun u32 => writeByte (storeUint32 (XHTONL u32))

def writeUint64 : Writer UInt64 := fun u64 => writeByte (storeUint64 (XHTONLL u64))

def writeVarstr : Writer Bytes := fun s m_buffer =>
  if s.length > 0xFFFF then none
  else (writeUint16 (UInt16.ofNat s.length) m_buffer).bind (writeByte s)

def marshal_pair {First Second : Type} (first : Writer First) (second : Writer Second) :
    Writer (Lex (First × Second)) := fun pair m_buffer =>
  (first (ofLex pair).1 m_buffer).bind (second (ofLex pair).2)

def marshal_elements {Element : Type} (element : Writer Element) : Writer (List Element)
  | [], m_buffer => some m_buffer
  | one :: rest, m_buffer => (element one m_buffer).bind (marshal_elements element rest)

def marshal_container {Element : Type} (element : Writer Element) : Writer (List Element) :=
  fun elements m_buffer =>
    (writeUint32 (UInt32.ofNat elements.length) m_buffer).bind (marshal_elements element elements)

/-- `operator <<`. -/
def marshal : (ty : Ty) → Writer ty.El
  | .bool => fun (sign : Bool) => writeUint8 (if sign then 1 else 0)
  | .uint8 => writeUint8
  | .uint16 => writeUint16
  | .uint32 => writeUint32
  | .uint64 => writeUint64
  | .string => writeVarstr
  | .pair first second => marshal_pair (marshal first) (marshal second)
  | .vector element => marshal_container (marshal element)
  | .set element => fun elements => marshal_container (marshal element) elements.1
  | .map key value => fun entries =>
      marshal_container (marshal_pair (marshal key) (marshal value)) entries.1

/-! Reading. -/

abbrev Memory := Nat → UInt8

structure BinReadStream where
  m_data : Nat
  m_size : Nat
  touched : List Nat

abbrev Reader (Value : Type) := Memory → BinReadStream → Except Exn Value × BinReadStream

namespace Reader
variable {Value Result : Type}

def ret (value : Value) : Reader Value := fun _ stream => (.ok value, stream)

def bind (reader : Reader Value) (next : Value → Reader Result) : Reader Result :=
  fun memory stream =>
    match reader memory stream with
    | (.error exn, after) => (.error exn, after)
    | (.ok value, after) => next value memory after

end Reader

namespace BinReadStream

def touch (stream : BinReadStream) (address k : Nat) : BinReadStream :=
  { stream with touched := stream.touched ++ List.range' address k }

/-- `m_data += k; m_size -= k`. -/
def pop (stream : BinReadStream) (k : Nat) : BinReadStream :=
  { stream with m_data := stream.m_data + k, m_size := stream.m_size - k }

/-- The bytes that are left. -/
def bytes (stream : BinReadStream) (memory : Memory) : Bytes :=
  (List.range' stream.m_data stream.m_size).map memory

end BinReadStream

def readUint8 : Reader UInt8 := fun memory stream =>
  if stream.m_size < 1 then (.error .readStreamExn, stream)
  else (.ok (memory stream.m_data), (stream.touch stream.m_data 1).pop 1)

def readUint16 : Reader UInt16 := fun memory stream =>
  if stream.m_size < 2 then (.error .readStreamExn, stream)
  else
    let i16 := loadUint16 (memory stream.m_data) (memory (stream.m_data + 1))
    (.ok (XHTONS i16), (stream.touch stream.m_data 2).pop 2)

def readUint32 : Reader UInt32 := fun memory stream =>
  if stream.m_size < 4 then (.error .readStreamExn, stream)
  else
    let byte i := memory (stream.m_data + i)
    let i32 := loadUint32 (byte 0) (byte 1) (byte 2) (byte 3)
    (.ok (XHTONL i32), (stream.touch stream.m_data 4).pop 4)

def readUint64 : Reader UInt64 := fun memory stream =>
  if stream.m_size < 8 then (.error .readStreamExn, stream)
  else
    let byte i := memory (stream.m_data + i)
    let i64 := loadUint64 (loadUint32 (byte 0) (byte 1) (byte 2) (byte 3))
      (loadUint32 (byte 4) (byte 5) (byte 6) (byte 7))
    (.ok (XHTONLL i64), (stream.touch stream.m_data 8).pop 8)

def pop_fetch_ptr (k : Nat) : Reader Nat := fun _ stream =>
  if stream.m_size < k then (.error .readStreamExn, stream)
  else (.ok stream.m_data, stream.pop k)

structure Varstr where
  m_data : Nat
  m_size : Nat

def readVarstr_ptr : Reader Varstr :=
  readUint16.bind fun m_size => (pop_fetch_ptr m_size.toNat).bind fun m_data =>
    .ret ⟨m_data, m_size.toNat⟩

/-- The constructor of a string from a pointer and a size. -/
def string (vs : Varstr) : Reader Bytes := fun memory stream =>
  (.ok ((List.range' vs.m_data vs.m_size).map memory), stream.touch vs.m_data vs.m_size)

def readVarstr : Reader Bytes := readVarstr_ptr.bind string

def unmarshal_pair {First Second : Type} (first : Reader First) (second : Reader Second) :
    Reader (Lex (First × Second)) :=
  first.bind fun one => second.bind fun two => .ret (toLex (one, two))

def unmarshal_elements {Element Container : Type} (element : Reader Element)
    (insert : Container → Element → Container) : Nat → Container → Reader Container
  | 0, container => .ret container
  | count + 1, container => element.bind fun tmp =>
      unmarshal_elements element insert count (insert container tmp)

def unmarshal_container {Element Container : Type} (element : Reader Element)
    (insert : Container → Element → Container) (container : Container) : Reader Container :=
  readUint32.bind fun count => unmarshal_elements element insert count.toNat container

/-- `operator >>`, into a fresh object. -/
def unmarshal : (ty : Ty) → Reader ty.El
  | .bool => readUint8.bind fun i8 => .ret (if i8 == 0 then false else true)
  | .uint8 => readUint8
  | .uint16 => readUint16
  | .uint32 => readUint32
  | .uint64 => readUint64
  | .string => readVarstr
  | .pair first second => unmarshal_pair (unmarshal first) (unmarshal second)
  | .vector element => unmarshal_container (unmarshal element) push_back []
  | .set element => unmarshal_container (unmarshal element) Keyed.insert Keyed.empty
  | .map key value =>
      unmarshal_container (unmarshal_pair (unmarshal key) (unmarshal value)) Keyed.insert Keyed.empty

/-! What is written. -/

section Writes
variable {Value Element First Second : Type}

/-- A write that is not refused appends the bytes of its value. -/
def Writes (writer : Writer Value) (encoder : Value → Bytes) (small : Value → Prop) : Prop :=
  ∀ value pb after, writer value pb = some after →
    after.content = pb.content ++ encoder value ∧ small value

theorem writeByte_writes (s : Bytes) (pb after : PackBuffer) (done : writeByte s pb = some after) :
    after.content = pb.content ++ s :=
  BlockMemory.append_content pb after s done

theorem writeVarstr_writes : Writes writeVarstr encodeString fun s => s.length ≤ 0xFFFF := by
  intro s pb after done
  rw [writeVarstr] at done
  split at done
  · cases done
  · next fits =>
      obtain ⟨between, sized, filled⟩ := Option.bind_eq_some_iff.mp done
      refine ⟨?_, Nat.not_lt.mp fits⟩
      rw [writeByte_writes s between after filled, writeByte_writes _ pb between sized,
        List.append_assoc]
      rfl

theorem marshal_pair_writes (first : Writer First) (second : Writer Second)
    (firstEncoder : First → Bytes) (secondEncoder : Second → Bytes) (firstSmall : First → Prop)
    (secondSmall : Second → Prop) (one : Writes first firstEncoder firstSmall)
    (two : Writes second secondEncoder secondSmall) :
    Writes (marshal_pair first second) (encodePair firstEncoder secondEncoder)
      fun pair => firstSmall (ofLex pair).1 ∧ secondSmall (ofLex pair).2 := by
  intro pair pb after done
  obtain ⟨between, wrote, wrote'⟩ := Option.bind_eq_some_iff.mp done
  obtain ⟨content, small⟩ := one _ pb between wrote
  obtain ⟨content', small'⟩ := two _ between after wrote'
  refine ⟨?_, small, small'⟩
  rw [content', content, List.append_assoc]
  rfl

theorem marshal_elements_writes (element : Writer Element) (encoder : Element → Bytes)
    (small : Element → Prop) (writes : Writes element encoder small) :
    Writes (marshal_elements element) (fun elements => elements.flatMap encoder)
      fun elements => ∀ one ∈ elements, small one := by
  intro elements
  induction elements with
  | nil =>
      intro pb after done
      cases done
      exact ⟨(List.append_nil _).symm, fun _ member => absurd member List.not_mem_nil⟩
  | cons one rest ih =>
      intro pb after done
      obtain ⟨between, wrote, wrote'⟩ := Option.bind_eq_some_iff.mp done
      obtain ⟨content, first⟩ := writes one pb between wrote
      obtain ⟨content', others⟩ := ih between after wrote'
      refine ⟨?_, fun other member => ?_⟩
      · rw [content', content, List.append_assoc]
        rfl
      · rcases List.mem_cons.mp member with same | later
        · exact same ▸ first
        · exact others other later

/-- A container with too many elements does not fit a pack buffer. -/
theorem marshal_container_writes (element : Writer Element) (encoder : Element → Bytes)
    (small : Element → Prop) (writes : Writes element encoder small)
    (something : ∀ one, 0 < (encoder one).length) :
    Writes (marshal_container element) (encodeContainer encoder)
      fun elements => elements.length < 2 ^ 32 ∧ ∀ one ∈ elements, small one := by
  intro elements pb after done
  obtain ⟨between, counted, wrote⟩ := Option.bind_eq_some_iff.mp done
  obtain ⟨content, allSmall⟩ :=
    marshal_elements_writes element encoder small writes elements between after wrote
  have written : after.content = pb.content ++ encodeContainer encoder elements := by
    rw [content, writeByte_writes _ pb between counted, List.append_assoc]
    rfl
  refine ⟨written, ?_, allSmall⟩
  -- Every element takes at least a byte, and the buffer holds fewer than 2^32.
  have count : elements.length ≤ (elements.flatMap encoder).length := by
    have each := List.length_le_sum_of_one_le (elements.map fun one => (encoder one).length)
    rw [List.length_map, ← List.length_flatMap] at each
    apply each
    intro n member
    obtain ⟨one, -, rfl⟩ := List.mem_map.mp member
    exact something one
  have room : after.content.length ≤ 65536 * (16 * 1024) := BlockMemory.content_within after
  rw [written, encodeContainer, List.length_append, List.length_append] at room
  omega

end Writes

theorem encode_something (ty : Ty) (value : ty.El) : 0 < (encode ty value).length := by
  induction ty with
  | bool | uint8 | uint16 | uint32 | uint64 => exact Nat.succ_pos _
  | string => exact Nat.succ_pos _
  | pair first second one two =>
      change 0 < (encode first _ ++ encode second _).length
      rw [List.length_append]
      exact Nat.lt_add_right _ (one _)
  | vector element | set element | map key entry => exact Nat.succ_pos _

theorem marshal_writes (ty : Ty) : Writes (marshal ty) (encode ty) (Small ty) := by
  induction ty with
  | bool | uint8 | uint16 | uint32 | uint64 =>
      exact fun value pb after done => ⟨writeByte_writes _ pb after done, trivial⟩
  | string => exact writeVarstr_writes
  | pair first second one two => exact marshal_pair_writes _ _ _ _ _ _ one two
  | vector element one =>
      exact marshal_container_writes _ _ _ one (encode_something element)
  | set element one =>
      exact fun elements => marshal_container_writes _ _ _ one (encode_something element) elements.1
  | map key value one two =>
      exact fun entries => marshal_container_writes _ _ _ (marshal_pair_writes _ _ _ _ _ _ one two)
        (encode_something (.pair key value)) entries.1

/-! What is read. -/

namespace BinReadStream
variable (stream : BinReadStream) (memory : Memory)

/-- The stream when its first `k` bytes have been read. -/
def advance (k : Nat) : BinReadStream := (stream.touch stream.m_data k).pop k

theorem advance_zero : stream.advance 0 = stream := by
  simp only [advance, touch, pop, List.range'_zero, List.append_nil, Nat.add_zero, Nat.sub_zero]

theorem advance_advance (j k : Nat) : (stream.advance j).advance k = stream.advance (j + k) := by
  simp only [advance, touch, pop, List.append_assoc, List.range'_append_1, Nat.add_assoc,
    Nat.sub_sub]

theorem bytes_length : (stream.bytes memory).length = stream.m_size := by
  rw [bytes, List.length_map, List.length_range']

theorem bytes_advance (k : Nat) :
    (stream.advance k).bytes memory = (stream.bytes memory).drop k := by
  simp only [bytes, advance, touch, pop, ← List.map_drop, List.drop_range', Nat.mul_one]

/-- How many bytes were read, from what they were and what is left. -/
theorem used_length (front rest : Bytes) (used : Nat) (inside : used ≤ stream.m_size)
    (parts : stream.bytes memory = front ++ rest)
    (left_ : rest = (stream.bytes memory).drop used) : used = front.length := by
  have length := congrArg List.length parts
  have length' := congrArg List.length left_
  rw [bytes_length, List.length_append] at length
  rw [List.length_drop, bytes_length] at length'
  omega

end BinReadStream

section Refines
variable {Value Result Element Container : Type}

/-- A reader does in memory what a decoder does on the bytes, and reads these
bytes only. -/
def Refines (reader : Reader Value) (decoder : Decoder Value) : Prop :=
  ∀ memory stream, ∃ used ≤ stream.m_size,
    (reader memory stream).2 = stream.advance used ∧
      (reader memory stream).1 = (decoder (stream.bytes memory)).map Prod.fst ∧
      ∀ value rest, decoder (stream.bytes memory) = .ok (value, rest) →
        rest = (stream.bytes memory).drop used

theorem refines_ret (value : Value) : Refines (.ret value) (.ret value) := by
  intro memory stream
  refine ⟨0, Nat.zero_le _, stream.advance_zero.symm, rfl, fun _ rest done => ?_⟩
  cases done
  rfl

theorem refines_bind (reader : Reader Value) (next : Value → Reader Result)
    (decoder : Decoder Value) (then_ : Value → Decoder Result) (first : Refines reader decoder)
    (second : ∀ value, Refines (next value) (then_ value)) :
    Refines (reader.bind next) (decoder.bind then_) := by
  intro memory stream
  obtain ⟨used, inside, after, result, left_⟩ := first memory stream
  cases read : reader memory stream with
  | mk outcome behind =>
      rw [read] at after result
      change behind = _ at after
      change outcome = _ at result
      cases decoded : decoder (stream.bytes memory) with
      | error exn =>
          rw [decoded] at result
          subst result
          refine ⟨used, inside, ?_, ?_, fun _ _ done => ?_⟩
          · rw [Reader.bind, read]
            exact after
          · rw [Reader.bind, read, Decoder.bind, decoded]
            rfl
          · rw [Decoder.bind, decoded] at done
            cases done
      | ok pair =>
          -- The second reader starts where the first one stopped.
          obtain ⟨value, rest⟩ := pair
          have bytes := left_ value rest decoded
          rw [decoded] at result
          subst result after
          obtain ⟨more, inside', after', result', left'⟩ :=
            second value memory (stream.advance used)
          have fits : more ≤ stream.m_size - used := inside'
          rw [BinReadStream.bytes_advance, ← bytes] at result' left'
          have sameReader : reader.bind next memory stream =
              next value memory (stream.advance used) := by
            rw [Reader.bind, read]
            rfl
          have sameDecoder : decoder.bind then_ (stream.bytes memory) = then_ value rest := by
            rw [Decoder.bind, decoded]
          rw [sameReader, sameDecoder]
          refine ⟨used + more, by omega, ?_, result', fun last bytes' done => ?_⟩
          · rw [after', BinReadStream.advance_advance]
          · rw [left' last bytes' done, bytes, List.drop_drop]

/-- Words: the reader and the decoder both need `k` bytes. -/
theorem refines_word (reader : Reader Value) (decoder : Decoder Value) (k : Nat)
    (short : ∀ memory stream, stream.m_size < k →
      reader memory stream = (.error .readStreamExn, stream))
    (short' : ∀ bytes, bytes.length < k → decoder bytes = .error .readStreamExn)
    (long : ∀ memory m_data size touched, ∃ value,
      reader memory ⟨m_data, size + k, touched⟩ =
          (.ok value, BinReadStream.advance ⟨m_data, size + k, touched⟩ k) ∧
        decoder (BinReadStream.bytes ⟨m_data, size + k, touched⟩ memory) =
          .ok (value, (BinReadStream.bytes ⟨m_data, size + k, touched⟩ memory).drop k)) :
    Refines reader decoder := by
  intro memory stream
  by_cases enough : stream.m_size < k
  · have refused := short' (stream.bytes memory) (by rw [BinReadStream.bytes_length]; exact enough)
    rw [short memory stream enough, refused]
    exact ⟨0, Nat.zero_le _, stream.advance_zero.symm, rfl, fun _ _ done => nomatch done⟩
  · obtain ⟨m_data, m_size, touched⟩ := stream
    obtain ⟨size, rfl⟩ : ∃ size, m_size = size + k := ⟨m_size - k, by
      change ¬ m_size < k at enough
      omega⟩
    obtain ⟨value, read, decoded⟩ := long memory m_data size touched
    rw [read, decoded]
    refine ⟨k, Nat.le_add_left _ _, rfl, rfl, fun _ rest done => ?_⟩
    cases done
    rfl

theorem readUint8_refines : Refines readUint8 ByteStream.readUint8 := by
  apply refines_word _ _ 1
  · exact fun memory stream short => if_pos short
  · intro bytes short
    rw [List.length_eq_zero_iff.mp (Nat.lt_one_iff.mp short)]
    rfl
  · intro memory m_data size touched
    exact ⟨_, if_neg (Nat.not_lt.mpr (Nat.le_add_left _ _)), rfl⟩

theorem readUint16_refines : Refines readUint16 ByteStream.readUint16 := by
  apply refines_word _ _ 2
  · exact fun memory stream short => if_pos short
  · intro bytes short
    simp only [ByteStream.readUint16]
    split
    · simp only [List.length_cons] at short
      omega
    · rfl
  · intro memory m_data size touched
    exact ⟨_, if_neg (Nat.not_lt.mpr (Nat.le_add_left _ _)), rfl⟩

theorem readUint32_refines : Refines readUint32 ByteStream.readUint32 := by
  apply refines_word _ _ 4
  · exact fun memory stream short => if_pos short
  · intro bytes short
    simp only [ByteStream.readUint32]
    split
    · simp only [List.length_cons] at short
      omega
    · rfl
  · intro memory m_data size touched
    exact ⟨_, if_neg (Nat.not_lt.mpr (Nat.le_add_left _ _)), rfl⟩

theorem readUint64_refines : Refines readUint64 ByteStream.readUint64 := by
  apply refines_word _ _ 8
  · exact fun memory stream short => if_pos short
  · intro bytes short
    simp only [ByteStream.readUint64]
    split
    · simp only [List.length_cons] at short
      omega
    · rfl
  · intro memory m_data size touched
    exact ⟨_, if_neg (Nat.not_lt.mpr (Nat.le_add_left _ _)), rfl⟩

/-- `pop_fetch`. -/
theorem pop_fetch_refines (k : Nat) :
    Refines ((pop_fetch_ptr k).bind fun m_data => string ⟨m_data, k⟩) (popBytes k) := by
  apply refines_word _ _ k
  · intro memory stream short
    rw [Reader.bind, pop_fetch_ptr, if_pos short]
  · exact fun bytes short => if_pos short
  · intro memory m_data size touched
    have length := BinReadStream.bytes_length ⟨m_data, size + k, touched⟩ memory
    have enough : ¬ size + k < k := Nat.not_lt.mpr (Nat.le_add_left _ _)
    refine ⟨(List.range' m_data k).map memory, ?_, ?_⟩
    · rw [Reader.bind, pop_fetch_ptr, if_neg enough]
      rfl
    · rw [popBytes, length, if_neg enough, BinReadStream.bytes, ← List.map_take,
        List.take_range'_of_length_ge (Nat.le_add_left _ _)]

theorem readVarstr_refines : Refines readVarstr decodeString := by
  have fetched : readVarstr = readUint16.bind fun m_size =>
      (pop_fetch_ptr m_size.toNat).bind fun m_data => string ⟨m_data, m_size.toNat⟩ := by
    funext memory stream
    simp only [readVarstr, readVarstr_ptr, Reader.bind]
    cases readUint16 memory stream with
    | mk outcome after =>
        cases outcome with
        | error exn => rfl
        | ok size =>
            cases found : pop_fetch_ptr size.toNat memory after with
            | mk outcome' after' =>
                simp only [found]
                cases outcome' <;> rfl
  rw [fetched]
  exact refines_bind _ _ _ _ readUint16_refines fun size => pop_fetch_refines size.toNat

theorem unmarshal_pair_refines {First Second : Type} (first : Reader First) (second : Reader Second)
    (firstDecoder : Decoder First) (secondDecoder : Decoder Second)
    (one : Refines first firstDecoder) (two : Refines second secondDecoder) :
    Refines (unmarshal_pair first second) (decodePair firstDecoder secondDecoder) :=
  refines_bind _ _ _ _ one fun _ => refines_bind _ _ _ _ two fun _ => refines_ret _

theorem unmarshal_elements_refines (element : Reader Element) (decoder : Decoder Element)
    (refines_ : Refines element decoder) (insert : Container → Element → Container) (count : Nat)
    (container : Container) :
    Refines (unmarshal_elements element insert count container)
      (decodeElements decoder insert count container) := by
  induction count generalizing container with
  | zero => exact refines_ret container
  | succ count ih => exact refines_bind _ _ _ _ refines_ fun tmp => ih (insert container tmp)

theorem unmarshal_container_refines (element : Reader Element) (decoder : Decoder Element)
    (refines_ : Refines element decoder) (insert : Container → Element → Container)
    (empty : Container) :
    Refines (unmarshal_container element insert empty) (decodeContainer decoder insert empty) :=
  refines_bind _ _ _ _ readUint32_refines fun count =>
    unmarshal_elements_refines element decoder refines_ insert count.toNat empty

end Refines

theorem unmarshal_refines (ty : Ty) : Refines (unmarshal ty) (decode ty) := by
  induction ty with
  | bool => exact refines_bind _ _ _ _ readUint8_refines fun _ => refines_ret _
  | uint8 => exact readUint8_refines
  | uint16 => exact readUint16_refines
  | uint32 => exact readUint32_refines
  | uint64 => exact readUint64_refines
  | string => exact readVarstr_refines
  | pair first second one two => exact unmarshal_pair_refines _ _ _ _ one two
  | vector element one | set element one => exact unmarshal_container_refines _ _ one _ _
  | map key value one two =>
      exact unmarshal_container_refines _ _ (unmarshal_pair_refines _ _ _ _ one two) _ _

/-- What was written for a value is read as the value, whatever follows it. -/
theorem unmarshal_marshalled (ty : Ty) (value : ty.El) (pb after : PackBuffer)
    (done : marshal ty value pb = some after) :
    ∃ written, after.content = pb.content ++ written ∧
      ∀ (trailing : Bytes) memory stream, stream.bytes memory = written ++ trailing →
        unmarshal ty memory stream = (.ok value, stream.advance written.length) ∧
          (stream.advance written.length).bytes memory = trailing := by
  obtain ⟨content, small⟩ := marshal_writes ty value pb after done
  refine ⟨encode ty value, content, fun trailing memory stream bytes => ?_⟩
  have decoded : decode ty (stream.bytes memory) = .ok (value, trailing) := by
    rw [bytes]
    exact decode_encode ty value trailing small
  obtain ⟨used, inside, behind, result, left_⟩ := unmarshal_refines ty memory stream
  have rest := left_ value trailing decoded
  have same := stream.used_length memory (encode ty value) trailing used inside bytes rest
  subst same
  rw [decoded] at result
  exact ⟨Prod.ext result behind, (stream.bytes_advance memory _).trans rest.symm⟩

/-- A set with one pair, of a string and a list of words. -/
theorem unmarshal_marshalled_set :
    let ty : Ty := .set (.pair .string (.vector .uint16))
    let value : ty.El :=
      Keyed.empty.insert (toLex (([97, 98] : Bytes), ([258, 7] : List UInt16)))
    ∃ after, marshal ty value BlockBuffer.fresh = some after ∧
      ∃ written, after.content = [] ++ written ∧
        ∀ (trailing : Bytes) memory stream, stream.bytes memory = written ++ trailing →
          unmarshal ty memory stream = (.ok value, stream.advance written.length) ∧
            (stream.advance written.length).bytes memory = trailing := by
  intro ty value
  have made : (marshal ty value BlockBuffer.fresh).isSome = true := by decide +kernel
  obtain ⟨after, done⟩ := Option.isSome_iff_exists.mp made
  exact ⟨after, done, unmarshal_marshalled ty value _ after done⟩

/-- Whatever is in memory: the value or the exception of the stream, from bytes
inside the range only. -/
theorem unmarshal_inside (ty : Ty) (memory : Memory) (stream : BinReadStream) :
    ∃ consumed after, consumed ≤ stream.m_size ∧ (unmarshal ty memory stream).2 = after ∧
      after.m_data = stream.m_data + consumed ∧
      after.m_data + after.m_size = stream.m_data + stream.m_size ∧
      after.touched = stream.touched ++ List.range' stream.m_data consumed ∧
      ((unmarshal ty memory stream).1 = .error .readStreamExn ∨
        ∃ value, (unmarshal ty memory stream).1 = .ok value ∧ 0 < consumed ∧
          Within consumed ty value ∧
          (Canonical ty = true → (stream.bytes memory).take consumed = encode ty value ∧
            ∀ pb after', marshal ty value pb = some after' →
              after'.content = pb.content ++ (stream.bytes memory).take consumed)) := by
  obtain ⟨used, inside, behind, result, left_⟩ := unmarshal_refines ty memory stream
  have end_ : stream.m_data + used + (stream.m_size - used) = stream.m_data + stream.m_size := by
    omega
  refine ⟨used, stream.advance used, inside, behind, rfl, end_, rfl, ?_⟩
  rcases decode_yields ty (stream.bytes memory) with threw | ⟨value, bytes, rest, done, parts, read⟩
  · rw [threw] at result
    exact .inl result
  · have same := stream.used_length memory bytes rest used inside parts (left_ value rest done)
    subst same
    rw [done] at result
    have front : (stream.bytes memory).take bytes.length = bytes := by rw [parts, List.take_left]
    refine .inr ⟨value, result, read.consumed, read.within, fun canonical => ?_⟩
    rw [front]
    refine ⟨read.encoded canonical, fun pb after' wrote => ?_⟩
    rw [(marshal_writes ty value pb after' wrote).1, ← read.encoded canonical]

end FPayNode.BinaryStream
