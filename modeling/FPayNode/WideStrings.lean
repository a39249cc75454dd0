import FPayNode.BinaryStream

/-!
Wide strings in `core/base/ByteStream.h`, where a `wchar_t` has four bytes in the
order of the machine. The writer counts two bytes for a character, and the reader
takes a character for every two bytes; both then copy the memory of whole
characters.
-/

namespace FPayNode.WideStrings

open DecimalText BlockBuffers SenderFrames BinaryValues BinaryStream
open ByteStream hiding readUint32

def wideBytes (ws : List UInt32) : Bytes := ws.flatMap storeUint32

def writeVarwstring32 : Writer (List UInt32) := fun ws m_buffer =>
  let len := ws.length * 2
  (writeUint32 (UInt32.ofNat len) m_buffer).bind (writeByte ((wideBytes ws).take len))

def readVarstr32_ptr : Reader Varstr :=
  readUint32.bind fun m_size => (pop_fetch_ptr m_size.toNat).bind fun m_data =>
    .ret ⟨m_data, m_size.toNat⟩

def wcharAt (memory : Memory) (ptr : Nat) : UInt32 :=
  loadUint32 (memory ptr) (memory (ptr + 1)) (memory (ptr + 2)) (memory (ptr + 3))

def wcharsAt (memory : Memory) : Nat → Nat → List UInt32
  | _, 0 => []
  | ptr, count + 1 => wcharAt memory ptr :: wcharsAt memory (ptr + 4) count

/-- The constructor of a wide string from a pointer and a number of characters. -/
def wstring (ptr count : Nat) : Reader (List UInt32) := fun memory stream =>
  (.ok (wcharsAt memory ptr count), stream.touch ptr (4 * count))

def readVarwstring32 : Reader (List UInt32) :=
  readVarstr32_ptr.bind fun vs => wstring vs.m_data (vs.m_size / 2)

/-- The number in the first four bytes. -/
def prefixAt (memory : Memory) (ptr : Nat) : Nat := (XHTONL (wcharAt memory ptr)).toNat

/-- The string is read, and what followed it is left. -/
def Returns (memory : Memory) (stream : BinReadStream) (ws : List UInt32) (trailing : Bytes) :
    Prop :=
  (readVarwstring32 memory stream).1 = .ok ws ∧
    (readVarwstring32 memory stream).2.bytes memory = trailing

/-- Every address that is read lies in the range that the length delimits. -/
def Inside (memory : Memory) (stream : BinReadStream) : Prop :=
  ∃ addresses, (readVarwstring32 memory stream).2.touched = stream.touched ++ addresses ∧
    ∀ address ∈ addresses, stream.m_data ≤ address ∧
      address < stream.m_data + 4 + prefixAt memory stream.m_data

/-! Characters and bytes. -/

theorem storeUint32_injective (one other : UInt32) (same : storeUint32 one = storeUint32 other) :
    one = other := by
  have first := readUint32_written (XHTONL one) []
  have second := readUint32_written (XHTONL other) []
  rw [XHTONL_XHTONL] at first second
  rw [same, second] at first
  have words : XHTONL other = XHTONL one := (Prod.mk.inj (Except.ok.inj first)).1
  rw [← XHTONL_XHTONL one, ← words, XHTONL_XHTONL]

theorem wideBytes_length (ws : List UInt32) : (wideBytes ws).length = 4 * ws.length := by
  induction ws with
  | nil => rfl
  | cons w ws ih =>
      rw [wideBytes, List.flatMap_cons, List.length_append, ← wideBytes, ih, List.length_cons,
        storeUint32_length]
      omega

theorem bytes_wchar (memory : Memory) (ptr : Nat) :
    (List.range' ptr 4).map memory = storeUint32 (wcharAt memory ptr) := by
  rw [wcharAt, storeUint32_load]
  rfl

theorem wcharsAt_iff (memory : Memory) (ptr : Nat) (ws : List UInt32) :
    wcharsAt memory ptr ws.length = ws ↔
      (List.range' ptr (4 * ws.length)).map memory = wideBytes ws := by
  induction ws generalizing ptr with
  | nil => exact iff_of_true rfl rfl
  | cons w ws ih =>
      have split : List.range' ptr (4 * (w :: ws).length) =
          List.range' ptr 4 ++ List.range' (ptr + 4) (4 * ws.length) := by
        rw [List.length_cons, Nat.mul_add, Nat.add_comm, List.range'_append_1]
      rw [split, List.map_append, bytes_wchar, wideBytes, List.flatMap_cons, ← wideBytes,
        List.length_cons, wcharsAt, List.cons.injEq, ih]
      constructor
      · rintro ⟨first, rest⟩
        rw [first, rest]
      · intro same
        obtain ⟨first, rest⟩ := List.append_inj same rfl
        exact ⟨storeUint32_injective _ _ first, rest⟩

/-! Reading. -/

def fetched (memory : Memory) (stream : BinReadStream) : BinReadStream :=
  ((stream.advance 4).pop (prefixAt memory stream.m_data)).touch (stream.m_data + 4)
    (4 * (prefixAt memory stream.m_data / 2))

theorem readVarwstring32_eq (memory : Memory) (stream : BinReadStream) :
    readVarwstring32 memory stream =
      if stream.m_size < 4 then (.error .readStreamExn, stream)
      else if stream.m_size - 4 < prefixAt memory stream.m_data then
        (.error .readStreamExn, stream.advance 4)
      else
        (.ok (wcharsAt memory (stream.m_data + 4) (prefixAt memory stream.m_data / 2)),
          fetched memory stream) := by
  by_cases short : stream.m_size < 4
  · have nothing : readUint32 memory stream = (.error .readStreamExn, stream) := by
      rw [readUint32, if_pos short]
    rw [if_pos short]
    simp only [readVarwstring32, readVarstr32_ptr, Reader.bind, nothing]
  · have size : readUint32 memory stream =
        (.ok (XHTONL (wcharAt memory stream.m_data)), stream.advance 4) := by
      rw [readUint32, if_neg short]
      rfl
    rw [if_neg short]
    simp only [readVarwstring32, readVarstr32_ptr, Reader.bind, size, pop_fetch_ptr]
    by_cases cut : stream.m_size - 4 < prefixAt memory stream.m_data
    · have less : (stream.advance 4).m_size < (XHTONL (wcharAt memory stream.m_data)).toNat := cut
      rw [if_pos cut, if_pos less]
    · have more : ¬ (stream.advance 4).m_size < (XHTONL (wcharAt memory stream.m_data)).toNat :=
        cut
      rw [if_neg cut, if_neg more]
      rfl

theorem fetched_bytes (memory : Memory) (stream : BinReadStream) :
    (fetched memory stream).bytes memory =
      (stream.bytes memory).drop (4 + prefixAt memory stream.m_data) := by
  rw [← List.drop_drop, ← stream.bytes_advance memory 4]
  exact (stream.advance 4).bytes_advance memory (prefixAt memory stream.m_data)

/-- Four bytes are read for every two that the length counts. -/
theorem inside_iff (memory : Memory) (stream : BinReadStream) :
    Inside memory stream ↔
      stream.m_size < 4 + prefixAt memory stream.m_data ∨ prefixAt memory stream.m_data < 2 := by
  rw [Inside, readVarwstring32_eq]
  by_cases short : stream.m_size < 4
  · rw [if_pos short]
    refine iff_of_true ⟨[], (List.append_nil _).symm, ?_⟩ (.inl (by omega))
    exact fun address member => absurd member List.not_mem_nil
  · rw [if_neg short]
    by_cases cut : stream.m_size - 4 < prefixAt memory stream.m_data
    · rw [if_pos cut]
      refine iff_of_true ⟨List.range' stream.m_data 4, rfl, ?_⟩ (.inl (by omega))
      intro address member
      rw [List.mem_range'_1] at member
      omega
    · rw [if_neg cut]
      have touched : (fetched memory stream).touched = stream.touched ++
          (List.range' stream.m_data 4 ++
            List.range' (stream.m_data + 4) (4 * (prefixAt memory stream.m_data / 2))) :=
        List.append_assoc _ _ _
      rw [touched]
      constructor
      · rintro ⟨addresses, same, inside⟩
        refine .inr (Nat.not_le.mp fun long => ?_)
        -- The last address of the characters is behind the range.
        have last : stream.m_data + 4 + 4 * (prefixAt memory stream.m_data / 2) - 1 ∈
            addresses := by
          rw [← List.append_cancel_left same]
          apply List.mem_append_right
          rw [List.mem_range'_1]
          omega
        have below := (inside _ last).2
        omega
      · intro few
        refine ⟨_, rfl, ?_⟩
        intro address member
        rcases List.mem_append.mp member with front | behind
        · rw [List.mem_range'_1] at front
          omega
        · rw [List.mem_range'_1] at behind
          omega

/-! Writing and reading. -/

theorem writeVarwstring32_content (ws : List UInt32) (pb after : PackBuffer)
    (wrote : writeVarwstring32 ws pb = some after) :
    after.content = pb.content ++ (storeUint32 (XHTONL (UInt32.ofNat (ws.length * 2))) ++
      (wideBytes ws).take (ws.length * 2)) := by
  simp only [writeVarwstring32, Option.bind_eq_some_iff] at wrote
  obtain ⟨sized, first, second⟩ := wrote
  rw [writeByte_writes _ _ _ second, writeByte_writes _ _ _ first, List.append_assoc]

/-- A range of memory in two parts. -/
theorem range_split (memory : Memory) (ptr k more : Nat) (front rest : Bytes)
    (bytes : (List.range' ptr (k + more)).map memory = front ++ rest) (size : front.length = k) :
    (List.range' ptr k).map memory = front ∧
      (List.range' (ptr + k) more).map memory = rest := by
  rw [← List.range'_append_1, List.map_append] at bytes
  exact List.append_inj bytes (by rw [List.length_map, List.length_range', size])

/-- The half that was not written is what the memory behind has to be. -/
theorem returns_iff (memory : Memory) (stream : BinReadStream) (ws : List UInt32)
    (trailing : Bytes) (small : ws.length < 2 ^ 30)
    (bytes : stream.bytes memory = storeUint32 (XHTONL (UInt32.ofNat (ws.length * 2))) ++
      (wideBytes ws).take (ws.length * 2) ++ trailing) :
    Returns memory stream ws trailing ↔
      (List.range' (stream.m_data + 4 + ws.length * 2) (ws.length * 2)).map memory =
        (wideBytes ws).drop (ws.length * 2) := by
  have half : ((wideBytes ws).take (ws.length * 2)).length = ws.length * 2 := by
    rw [List.length_take_of_le]
    rw [wideBytes_length]
    omega
  have size : stream.m_size = 4 + (ws.length * 2 + trailing.length) := by
    have length := congrArg List.length bytes
    rw [BinReadStream.bytes_length, List.length_append, List.length_append, half,
      storeUint32_length] at length
    omega
  have all := bytes
  rw [BinReadStream.bytes, size, List.append_assoc] at bytes
  obtain ⟨number, behind⟩ := range_split memory stream.m_data 4 _ _ _ bytes (storeUint32_length _)
  obtain ⟨written, -⟩ := range_split memory (stream.m_data + 4) _ _ _ _ behind half
  have count : prefixAt memory stream.m_data = ws.length * 2 := by
    rw [bytes_wchar] at number
    rw [prefixAt, storeUint32_injective _ _ number, XHTONL_XHTONL]
    exact UInt32.toNat_ofNat_of_lt' (by rw [UInt32.size]; omega)
  have rest : (fetched memory stream).bytes memory = trailing := by
    rw [fetched_bytes, all, count]
    exact List.drop_left' (by rw [List.length_append, half, storeUint32_length])
  rw [Returns, readVarwstring32_eq, if_neg (by omega), if_neg (by omega), count,
    Nat.mul_div_cancel _ (Nat.succ_pos 1)]
  simp only [Except.ok.injEq, rest, and_true]
  rw [wcharsAt_iff]
  constructor
  · intro whole
    have parts : (List.range' (stream.m_data + 4) (ws.length * 2 + ws.length * 2)).map memory =
        (wideBytes ws).take (ws.length * 2) ++ (wideBytes ws).drop (ws.length * 2) := by
      rw [List.take_append_drop, ← whole]
      congr 2
      omega
    exact (range_split memory _ _ _ _ _ parts half).2
  · intro missing
    have double : 4 * ws.length = ws.length * 2 + ws.length * 2 := by omega
    rw [double, ← List.range'_append_1, List.map_append, written, missing, List.take_append_drop]

/-- A wide string comes back only where the memory behind what was written holds
its other half; and only short strings are read inside their range. -/
theorem varwstring32_iff (ws : List UInt32) (pb after : PackBuffer) (written trailing : Bytes)
    (memory : Memory) (stream : BinReadStream) (small : ws.length < 2 ^ 30)
    (wrote : writeVarwstring32 ws pb = some after) (content : after.content = pb.content ++ written)
    (bytes : stream.bytes memory = written ++ trailing) :
    (Returns memory stream ws trailing ↔
      (List.range' (stream.m_data + 4 + ws.length * 2) (ws.length * 2)).map memory =
        (wideBytes ws).drop (ws.length * 2)) ∧
    ∀ memory stream, Inside memory stream ↔
      stream.m_size < 4 + prefixAt memory stream.m_data ∨
        prefixAt memory stream.m_data < 2 := by
  rw [writeVarwstring32_content ws pb after wrote] at content
  rw [← List.append_cancel_left content] at bytes
  exact ⟨returns_iff memory stream ws trailing small bytes, inside_iff⟩

/-- A buffer at address 0. -/
def memoryOf (bytes : Bytes) : Memory := fun address => bytes.getD address 0

/-- A letter, followed by two bytes that are those of its other half. -/
theorem varwstring32_iff_letter :
    ∃ after, writeVarwstring32 [65] BlockBuffer.fresh = some after ∧
      Returns (memoryOf [0, 0, 0, 2, 65, 0, 0, 0]) ⟨0, 8, []⟩ [65] [0, 0] ∧
      ∀ memory stream, Inside memory stream ↔
        stream.m_size < 4 + prefixAt memory stream.m_data ∨
          prefixAt memory stream.m_data < 2 := by
  have made : (writeVarwstring32 [65] BlockBuffer.fresh).isSome = true := by decide +kernel
  obtain ⟨after, wrote⟩ := Option.isSome_iff_exists.mp made
  have content : after.content = [] ++ [0, 0, 0, 2, 65, 0] :=
    (writeVarwstring32_content _ _ _ wrote).trans (by decide +kernel)
  obtain ⟨returns, inside⟩ := varwstring32_iff [65] BlockBuffer.fresh after [0, 0, 0, 2, 65, 0]
    [0, 0] (memoryOf [0, 0, 0, 2, 65, 0, 0, 0]) ⟨0, 8, []⟩ (by decide) wrote content
    (by decide +kernel)
  exact ⟨after, wrote, returns.mpr (by decide +kernel), inside⟩

/-- Followed by two other bytes it is another letter, and they were not its own. -/
theorem letter_not_returned :
    ∃ after, writeVarwstring32 [65] BlockBuffer.fresh = some after ∧
      after.content = [0, 0, 0, 2, 65, 0] ∧
      ¬ Returns (memoryOf [0, 0, 0, 2, 65, 0, 7, 9]) ⟨0, 8, []⟩ [65] [7, 9] ∧
      ¬ Inside (memoryOf [0, 0, 0, 2, 65, 0, 7, 9]) ⟨0, 8, []⟩ := by
  have made : (writeVarwstring32 [65] BlockBuffer.fresh).isSome = true := by decide +kernel
  obtain ⟨after, wrote⟩ := Option.isSome_iff_exists.mp made
  refine ⟨after, wrote, (writeVarwstring32_content _ _ _ wrote).trans (by decide +kernel), ?_, ?_⟩
  · rw [returns_iff _ _ _ _ (by decide) (by decide +kernel)]
    decide +kernel
  · rw [inside_iff]
    decide +kernel

end FPayNode.WideStrings
