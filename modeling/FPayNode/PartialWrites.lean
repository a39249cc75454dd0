import FPayNode.BinaryStream
import FPayNode.SenderObjects

/-!
What a write into a pack buffer leaves behind when it throws. `BinaryStream` says
only that it threw; here the buffer stays. There is no way back in the source: a
value is appended part by part, and a part that was appended remains when a later
one is refused. The buffer refuses a part when it would hold more than a gigabyte.
-/

namespace FPayNode.PartialWrites

open DecimalText ByteStream BlockBuffers SenderFrames SenderObjects BinaryValues

def maxsize : Nat := 65536 * (16 * 1024)

/-- "varstr too big", and the buffer that cannot take what it is given. -/
inductive WriteStreamExn where
  | tooBig | overflow
  deriving DecidableEq

/-- The buffer after a write, and what it threw. -/
structure Wrote where
  m_buffer : PackBuffer
  threw : Option WriteStreamExn

namespace Wrote

def andThen (first : Wrote) (next : PackBuffer → Wrote) : Wrote :=
  match first.threw with
  | none => next first.m_buffer
  | some _ => first

/-- Without the buffer of a write that threw. -/
def result (wrote : Wrote) : Option PackBuffer :=
  match wrote.threw with
  | none => some wrote.m_buffer
  | some _ => none

end Wrote

abbrev Writer (Value : Type) := Value → PackBuffer → Wrote

/-- `BlockBuffer::append` changes nothing when it cannot grow. -/
def writeByte : Writer Bytes := fun s m_buffer =>
  match m_buffer.append s with
  | some after => ⟨after, none⟩
  | none => ⟨m_buffer, some .overflow⟩

def writeUint8 : Writer UInt8 := fun u8 => writeByte [u8]

def writeUint16 : Writer UInt16 := fun u16 => writeByte (storeUint16 (XHTONS u16))

def writeUint32 : Writer UInt32 := fun u32 => writeByte (storeUint32 (XHTONL u32))

def writeUint64 : Writer UInt64 := fun u64 => writeByte (storeUint64 (XHTONLL u64))

def writeVarstr : Writer Bytes := fun s m_buffer =>
  if s.length > 0xFFFF then ⟨m_buffer, some .tooBig⟩
  else (writeUint16 (UInt16.ofNat s.length) m_buffer).andThen (writeByte s)

def writeVarstr32 : Writer Bytes := fun s m_buffer =>
  if s.length > 0xFFFFFFFF then ⟨m_buffer, some .tooBig⟩
  else (writeUint32 (UInt32.ofNat s.length) m_buffer).andThen (writeByte s)

def marshal_pair {First Second : Type} (first : Writer First) (second : Writer Second) :
    Writer (Lex (First × Second)) := fun pair m_buffer =>
  (first (ofLex pair).1 m_buffer).andThen (second (ofLex pair).2)

def marshal_elements {Element : Type} (element : Writer Element) : Writer (List Element)
  | [], m_buffer => ⟨m_buffer, none⟩
  | one :: rest, m_buffer => (element one m_buffer).andThen (marshal_elements element rest)

def marshal_container {Element : Type} (element : Writer Element) : Writer (List Element) :=
  fun elements m_buffer =>
    (writeUint32 (UInt32.ofNat elements.length) m_buffer).andThen
      (marshal_elements element elements)

/-- `operator <<`. -/
def marshal : (ty : Ty) → Writer ty.El
  | .bool => fun (sign : Bool) => writeUint8 (if sign then 1 else 0)
  | .uint8 => writeUint8
  | .uint16 => writeUint16
  | .uint32 => writeUint32
  | .uint64 => writeUint64
  | .string => writeVarstr
  | .pair first second => marshal_pair (marshal first) (marshal second)
  | .vector element => marshal_container (marshal element)
  | .set element => fun elements => marshal_container (marshal element) elements.1
  | .map key value => fun entries =>
      marshal_container (marshal_pair (marshal key) (marshal value)) entries.1

/-- `BlockBuffer::replace`; what it cuts off is lost when the buffer cannot take
the replacement. -/
def replace (pos : Nat) : Writer Bytes := fun rep m_buffer =>
  if pos ≥ m_buffer.size then writeByte rep m_buffer
  else if pos + rep.length ≥ m_buffer.size then
    writeByte rep (BlockMemory.truncated m_buffer pos)
  else
    match m_buffer.replace pos rep with
    | some after => ⟨after, none⟩
    | none => ⟨m_buffer, some .overflow⟩

def replaceUint8 (pos : Nat) : Writer UInt8 := fun u8 => replace pos [u8]

def replaceUint16 (pos : Nat) : Writer UInt16 := fun u16 =>
  replace pos (storeUint16 (XHTONS u16))

def replaceUint32 (pos : Nat) : Writer UInt32 := fun u32 =>
  replace pos (storeUint32 (XHTONL u32))

/-- The operations that append. -/
inductive WriteCall where
  | writeByte (s : Bytes)
  | writeUint8 (u8 : UInt8)
  | writeUint16 (u16 : UInt16)
  | writeUint32 (u32 : UInt32)
  | writeUint64 (u64 : UInt64)
  | writeVarstr (s : Bytes)
  | writeVarstr32 (s : Bytes)
  | marshal (ty : Ty) (value : ty.El)

def WriteCall.perform : WriteCall → PackBuffer → Wrote
  | .writeByte s => PartialWrites.writeByte s
  | .writeUint8 u8 => PartialWrites.writeUint8 u8
  | .writeUint16 u16 => PartialWrites.writeUint16 u16
  | .writeUint32 u32 => PartialWrites.writeUint32 u32
  | .writeUint64 u64 => PartialWrites.writeUint64 u64
  | .writeVarstr s => PartialWrites.writeVarstr s
  | .writeVarstr32 s => PartialWrites.writeVarstr32 s
  | .marshal ty value => PartialWrites.marshal ty value

/-! The writes that do not throw are those of `BinaryStream`. -/

theorem andThen_result (first : Wrote) (next : PackBuffer → Wrote) :
    (first.andThen next).result = first.result.bind fun pb => (next pb).result := by
  obtain ⟨pb, threw⟩ := first
  cases threw with
  | none => rfl
  | some exn => rfl

theorem writeByte_result (s : Bytes) (pb : PackBuffer) :
    (writeByte s pb).result = BinaryStream.writeByte s pb := by
  rw [writeByte, BinaryStream.writeByte]
  cases pb.append s with
  | none => rfl
  | some after => rfl

theorem writeVarstr_result (s : Bytes) (pb : PackBuffer) :
    (writeVarstr s pb).result = BinaryStream.writeVarstr s pb := by
  rw [writeVarstr, BinaryStream.writeVarstr]
  split
  · rfl
  · rw [andThen_result, writeUint16, writeByte_result]
    exact congrArg _ (funext (writeByte_result s))

section Results
variable {First Second Element : Type}

theorem marshal_pair_result (first : Writer First) (second : Writer Second)
    (first' : BinaryStream.Writer First) (second' : BinaryStream.Writer Second)
    (same : ∀ one pb, (first one pb).result = first' one pb)
    (same' : ∀ two pb, (second two pb).result = second' two pb)
    (pair : Lex (First × Second)) (pb : PackBuffer) :
    (marshal_pair first second pair pb).result =
      BinaryStream.marshal_pair first' second' pair pb := by
  rw [marshal_pair, BinaryStream.marshal_pair, andThen_result, same]
  exact congrArg _ (funext (same' _))

theorem marshal_elements_result (element : Writer Element) (element' : BinaryStream.Writer Element)
    (same : ∀ one pb, (element one pb).result = element' one pb) (elements : List Element)
    (pb : PackBuffer) :
    (marshal_elements element elements pb).result =
      BinaryStream.marshal_elements element' elements pb := by
  induction elements generalizing pb with
  | nil => rfl
  | cons one rest ih =>
      rw [marshal_elements, BinaryStream.marshal_elements, andThen_result, same]
      exact congrArg _ (funext ih)

theorem marshal_container_result (element : Writer Element)
    (element' : BinaryStream.Writer Element)
    (same : ∀ one pb, (element one pb).result = element' one pb) (elements : List Element)
    (pb : PackBuffer) :
    (marshal_container element elements pb).result =
      BinaryStream.marshal_container element' elements pb := by
  rw [marshal_container, BinaryStream.marshal_container, andThen_result, writeUint32,
    writeByte_result]
  exact congrArg _ (funext (marshal_elements_result element element' same elements))

end Results

theorem marshal_result (ty : Ty) (value : ty.El) (pb : PackBuffer) :
    (marshal ty value pb).result = BinaryStream.marshal ty value pb := by
  induction ty generalizing pb with
  | bool => exact writeByte_result _ pb
  | uint8 => exact writeByte_result _ pb
  | uint16 => exact writeByte_result _ pb
  | uint32 => exact writeByte_result _ pb
  | uint64 => exact writeByte_result _ pb
  | string => exact writeVarstr_result value pb
  | pair first second one two => exact marshal_pair_result _ _ _ _ one two value pb
  | vector element ih => exact marshal_container_result _ _ ih value pb
  | set element ih => exact marshal_container_result _ _ ih value.1 pb
  | map key value one two =>
      exact marshal_container_result _ _ (marshal_pair_result _ _ _ _ one two) _ pb

theorem replace_result (pos : Nat) (rep : Bytes) (pb : PackBuffer) :
    (replace pos rep pb).result = pb.replace pos rep := by
  rw [replace]
  by_cases behind : pos ≥ pb.size
  · rw [if_pos behind, writeByte_result, BlockBuffer.replace, if_pos behind]
    rfl
  · rw [if_neg behind]
    by_cases toEnd : pos + rep.length ≥ pb.size
    · rw [if_pos toEnd, writeByte_result, BlockBuffer.replace, if_neg behind, dif_pos toEnd]
      rfl
    · rw [if_neg toEnd]
      cases pb.replace pos rep with
      | none => rfl
      | some after => rfl

/-! The parts of a value. -/

/-- The parts up to the first string that is too long. -/
structure Parts where
  parts : List Bytes
  tooBig : Bool

namespace Parts

def one (part : Bytes) : Parts := ⟨[part], false⟩

def followedBy (first next : Parts) : Parts :=
  if first.tooBig then first else ⟨first.parts ++ next.parts, next.tooBig⟩

def varstr (max : Nat) (size s : Bytes) : Parts :=
  if s.length > max then ⟨[], true⟩ else (one size).followedBy (one s)

def elements {Element : Type} (element : Element → Parts) : List Element → Parts
  | [] => ⟨[], false⟩
  | one :: rest => (element one).followedBy (elements element rest)

def pair {First Second : Type} (first : First → Parts) (second : Second → Parts)
    (pair : Lex (First × Second)) : Parts :=
  (first (ofLex pair).1).followedBy (second (ofLex pair).2)

def container {Element : Type} (element : Element → Parts) (all : List Element) : Parts :=
  (one (storeUint32 (XHTONL (UInt32.ofNat all.length)))).followedBy (elements element all)

def ofValue : (ty : Ty) → ty.El → Parts
  | .bool => fun (sign : Bool) => one [if sign then 1 else 0]
  | .uint8 => fun (u8 : UInt8) => one [u8]
  | .uint16 => fun (u16 : UInt16) => one (storeUint16 (XHTONS u16))
  | .uint32 => fun (u32 : UInt32) => one (storeUint32 (XHTONL u32))
  | .uint64 => fun (u64 : UInt64) => one (storeUint64 (XHTONLL u64))
  | .string => fun (s : Bytes) => varstr 0xFFFF (storeUint16 (XHTONS (UInt16.ofNat s.length))) s
  | .pair first second => pair (ofValue first) (ofValue second)
  | .vector element => container (ofValue element)
  | .set element => fun all => container (ofValue element) all.1
  | .map key value => fun all => container (pair (ofValue key) (ofValue value)) all.1

/-- Appends part by part. -/
def write (parts : Parts) (m_buffer : PackBuffer) : Wrote :=
  ⟨(writePieces m_buffer parts.parts).pb,
    if (writePieces m_buffer parts.parts).completed then
      if parts.tooBig then some .tooBig else none
    else some .overflow⟩

end Parts

def WriteCall.parts : WriteCall → Parts
  | .writeByte s => .one s
  | .writeUint8 u8 => .one [u8]
  | .writeUint16 u16 => .one (storeUint16 (XHTONS u16))
  | .writeUint32 u32 => .one (storeUint32 (XHTONL u32))
  | .writeUint64 u64 => .one (storeUint64 (XHTONLL u64))
  | .writeVarstr s => .varstr 0xFFFF (storeUint16 (XHTONS (UInt16.ofNat s.length))) s
  | .writeVarstr32 s => .varstr 0xFFFFFFFF (storeUint32 (XHTONL (UInt32.ofNat s.length))) s
  | .marshal ty value => .ofValue ty value

theorem one_write (part : Bytes) (pb : PackBuffer) :
    (Parts.one part).write pb = writeByte part pb := by
  simp only [Parts.write, Parts.one, writePieces, writeByte]
  cases pb.append part with
  | none => rfl
  | some after => rfl

/-- A part that is refused is the last one that is tried. -/
theorem writePieces_refused (first next : List Bytes) (pb : PackBuffer)
    (refused : (writePieces pb first).completed = false) :
    writePieces pb (first ++ next) = writePieces pb first := by
  induction first generalizing pb with
  | nil => cases refused
  | cons part first ih =>
      rw [List.cons_append]
      simp only [writePieces] at refused ⊢
      split at refused
      · rfl
      · next after appended => simp only [ih after refused]

theorem writePieces_behind (first next : List Bytes) (pb : PackBuffer)
    (completed : (writePieces pb first).completed = true) :
    (writePieces pb (first ++ next)).pb = (writePieces (writePieces pb first).pb next).pb ∧
      (writePieces pb (first ++ next)).completed =
        (writePieces (writePieces pb first).pb next).completed := by
  induction first generalizing pb with
  | nil => exact ⟨rfl, rfl⟩
  | cons part first ih =>
      rw [List.cons_append]
      simp only [writePieces] at completed ⊢
      split at completed
      · cases completed
      · next after appended => exact ih after completed

theorem followedBy_write (first next : Parts) (pb : PackBuffer) :
    (first.followedBy next).write pb = (first.write pb).andThen next.write := by
  cases tooBig : first.tooBig with
  | true =>
      simp only [Parts.followedBy, tooBig, ↓reduceIte, Parts.write, Wrote.andThen]
      cases (writePieces pb first.parts).completed with
      | true => rfl
      | false => rfl
  | false =>
      simp only [Parts.followedBy, tooBig, Bool.false_eq_true, ↓reduceIte, Parts.write,
        Wrote.andThen]
      cases completed : (writePieces pb first.parts).completed with
      | true =>
          obtain ⟨left, rest⟩ := writePieces_behind first.parts next.parts pb completed
          simp only [left, rest, ↓reduceIte]
      | false =>
          simp only [writePieces_refused first.parts next.parts pb completed, completed,
            Bool.false_eq_true, ↓reduceIte]

theorem varstr_write (max : Nat) (size s : Bytes) (pb : PackBuffer) :
    (Parts.varstr max size s).write pb =
      if s.length > max then ⟨pb, some .tooBig⟩ else (writeByte size pb).andThen (writeByte s) := by
  by_cases long : s.length > max
  · rw [Parts.varstr, if_pos long, if_pos long]
    rfl
  · rw [Parts.varstr, if_neg long, if_neg long, followedBy_write, one_write]
    exact congrArg _ (funext (one_write s))

theorem elements_write {Element : Type} (element : Writer Element) (parts : Element → Parts)
    (same : ∀ one pb, element one pb = (parts one).write pb) (all : List Element)
    (pb : PackBuffer) : marshal_elements element all pb = (Parts.elements parts all).write pb := by
  induction all generalizing pb with
  | nil => rfl
  | cons one rest ih =>
      rw [marshal_elements, Parts.elements, followedBy_write, same]
      exact congrArg _ (funext ih)

theorem pair_write {First Second : Type} (first : Writer First) (second : Writer Second)
    (firstParts : First → Parts) (secondParts : Second → Parts)
    (same : ∀ one pb, first one pb = (firstParts one).write pb)
    (same' : ∀ two pb, second two pb = (secondParts two).write pb)
    (both : Lex (First × Second)) (pb : PackBuffer) :
    marshal_pair first second both pb = (Parts.pair firstParts secondParts both).write pb := by
  rw [marshal_pair, Parts.pair, followedBy_write, same]
  exact congrArg _ (funext (same' _))

theorem container_write {Element : Type} (element : Writer Element) (parts : Element → Parts)
    (same : ∀ one pb, element one pb = (parts one).write pb) (all : List Element)
    (pb : PackBuffer) :
    marshal_container element all pb = (Parts.container parts all).write pb := by
  rw [marshal_container, Parts.container, followedBy_write, one_write]
  exact congrArg _ (funext (elements_write element parts same all))

/-- A value is appended part by part, whatever its nesting. -/
theorem marshal_parts (ty : Ty) (value : ty.El) (pb : PackBuffer) :
    marshal ty value pb = (Parts.ofValue ty value).write pb := by
  induction ty generalizing pb with
  | bool => exact (one_write _ pb).symm
  | uint8 => exact (one_write _ pb).symm
  | uint16 => exact (one_write _ pb).symm
  | uint32 => exact (one_write _ pb).symm
  | uint64 => exact (one_write _ pb).symm
  | string => exact (varstr_write 0xFFFF _ value pb).symm
  | pair first second one two => exact pair_write _ _ _ _ one two value pb
  | vector element ih => exact container_write _ _ ih value pb
  | set element ih => exact container_write _ _ ih value.1 pb
  | map key value one two =>
      exact container_write _ _ (pair_write _ _ _ _ one two) _ pb

theorem perform_parts (call : WriteCall) (pb : PackBuffer) :
    call.perform pb = call.parts.write pb := by
  cases call with
  | writeVarstr s => exact (varstr_write 0xFFFF _ s pb).symm
  | writeVarstr32 s => exact (varstr_write 0xFFFFFFFF _ s pb).symm
  | marshal ty value => exact marshal_parts ty value pb
  | _ => exact (one_write _ pb).symm

/-! Nothing is taken back. -/

/-- What is left by a write that the buffer refused: the bytes of before, and the
parts in front of the one that does not fit. -/
theorem writePieces_left (parts : List Bytes) (pb : PackBuffer)
    (refused : (writePieces pb parts).completed = false) :
    ∃ written part rest, parts = written ++ part :: rest ∧
      (writePieces pb parts).pb.content = pb.content ++ written.flatten ∧
      maxsize < (pb.content ++ written.flatten ++ part).length := by
  induction parts generalizing pb with
  | nil => cases refused
  | cons part parts ih =>
      simp only [writePieces] at refused ⊢
      split at refused
      · next absent =>
          refine ⟨[], part, parts, rfl, ?_, ?_⟩
          · simp only [List.flatten_nil, List.append_nil]
          · rw [List.flatten_nil, List.append_nil]
            by_contra fits
            obtain ⟨after, appended, -⟩ := pb.append_some part (Nat.not_lt.mp fits)
            rw [absent] at appended
            cases appended
      · next after appended =>
          obtain ⟨written, refusedPart, rest, split, content, long⟩ := ih after refused
          have grown := BlockMemory.append_content pb after part appended
          refine ⟨part :: written, refusedPart, rest, by rw [split, List.cons_append], ?_, ?_⟩
          · simp only [content, grown, List.flatten_cons, List.append_assoc]
          · rw [List.flatten_cons, ← List.append_assoc pb.content, ← grown]
            exact long

/-- A write that the buffer refuses leaves it as it was. -/
def AllOrNothing (write : PackBuffer → Wrote) (pb : PackBuffer) : Prop :=
  (write pb).threw = some .overflow → (write pb).m_buffer.content = pb.content

/-- One number or one run of bytes. -/
def WriteCall.Single : WriteCall → Prop
  | .writeByte _ | .writeUint8 _ | .writeUint16 _ | .writeUint32 _ | .writeUint64 _ => True
  | _ => False

theorem single_parts (call : WriteCall) (single : call.Single) :
    ∃ part, call.parts = .one part := by
  cases call with
  | writeVarstr s => cases single
  | writeVarstr32 s => cases single
  | marshal ty value => cases single
  | _ => exact ⟨_, rfl⟩

theorem overflow_keeps_bytes (call : WriteCall) (pb : PackBuffer)
    (threw : (call.perform pb).threw = some .overflow) :
    (∃ written part rest, call.parts.parts = written ++ part :: rest ∧
      (call.perform pb).m_buffer.content = pb.content ++ written.flatten ∧
      maxsize < (pb.content ++ written.flatten ++ part).length) ∧
    (call.Single → AllOrNothing call.perform pb) := by
  simp only [AllOrNothing]
  rw [perform_parts] at threw ⊢
  have refused : (writePieces pb call.parts.parts).completed = false := by
    simp only [Parts.write] at threw
    split at threw
    · split at threw
      · cases threw
      · cases threw
    · next incomplete => exact Bool.eq_false_iff.mpr incomplete
  obtain ⟨written, part, rest, split, content, long⟩ := writePieces_left _ pb refused
  refine ⟨⟨written, part, rest, split, content, long⟩, fun single _ => ?_⟩
  obtain ⟨only, one⟩ := single_parts call single
  rw [one, Parts.one] at split
  -- One part cannot have another in front of it.
  have nothing : written = [] := by
    cases written with
    | nil => rfl
    | cons first written =>
        have length := congrArg List.length split
        simp only [List.length_cons, List.length_append, List.length_nil] at length
        omega
  change (writePieces pb call.parts.parts).pb.content = _
  rw [content, nothing, List.flatten_nil, List.append_nil]

theorem writeByte_fits (s : Bytes) (pb : PackBuffer) (fits : (pb.content ++ s).length ≤ maxsize) :
    ∃ after, writeByte s pb = ⟨after, none⟩ ∧ after.content = pb.content ++ s := by
  obtain ⟨after, appended, content⟩ := pb.append_some s fits
  exact ⟨after, by simp only [writeByte, appended], content⟩

theorem writeByte_long (s : Bytes) (pb : PackBuffer) (long : maxsize < (pb.content ++ s).length) :
    writeByte s pb = ⟨pb, some .overflow⟩ := by
  simp only [writeByte, BlockMemory.append_too_long pb s (Nat.not_le.mpr long)]

/-- A replacement that does not fit has cut off what it should replace. -/
theorem replace_long (pos : Nat) (rep : Bytes) (pb : PackBuffer) (inside : pos < pb.size)
    (long : maxsize < pos + rep.length) :
    replace pos rep pb = ⟨BlockMemory.truncated pb pos, some .overflow⟩ := by
  have within : pb.content.length ≤ maxsize := BlockMemory.content_within pb
  have toEnd : pos + rep.length ≥ pb.size := by
    rw [BlockBuffer.size]
    omega
  rw [replace, if_neg (Nat.not_le.mpr inside), if_pos toEnd]
  apply writeByte_long
  change maxsize < (pb.content.take pos ++ rep).length
  rw [List.length_append, List.length_take_of_le (Nat.le_of_lt inside)]
  exact long

theorem replace_allOrNothing_iff (pos : Nat) (rep : Bytes) (pb : PackBuffer) :
    AllOrNothing (replace pos rep) pb ↔ pb.size ≤ pos ∨ pos + rep.length ≤ maxsize := by
  by_cases behind : pos ≥ pb.size
  · refine iff_of_true ?_ (.inl behind)
    rw [AllOrNothing, replace, if_pos behind, writeByte]
    intro threw
    cases appended : pb.append rep with
    | none => rfl
    | some after =>
        rw [appended] at threw
        cases threw
  · by_cases long : maxsize < pos + rep.length
    · refine iff_of_false ?_ (not_or.mpr ⟨behind, Nat.not_le.mpr long⟩)
      rw [AllOrNothing, replace_long pos rep pb (Nat.not_le.mp behind) long]
      intro kept
      have length := congrArg List.length (kept rfl)
      change (pb.content.take pos).length = _ at length
      rw [BlockBuffer.size] at behind
      rw [List.length_take] at length
      omega
    · refine iff_of_true ?_ (.inr (Nat.not_lt.mp long))
      obtain ⟨after, replaced, -⟩ := BlockMemory.replace_within pb pos rep
        (Nat.le_of_lt (Nat.not_le.mp behind)) (Nat.not_lt.mp long)
      have done := replace_result pos rep pb
      rw [replaced] at done
      intro threw
      rw [Wrote.result, threw] at done
      cases done

/-- Two bytes below the limit the length of a string is taken, and its byte is
not. -/
theorem writeVarstr_overflows (pb : PackBuffer) (length : pb.content.length = 1073741822) :
    (writeVarstr [97] pb).threw = some .overflow ∧
      (writeVarstr [97] pb).m_buffer.content = pb.content ++ [0, 1] := by
  have size : storeUint16 (XHTONS (UInt16.ofNat [(97 : UInt8)].length)) = [0, 1] := by decide
  have short : ¬ [(97 : UInt8)].length > 0xFFFF := by decide
  obtain ⟨after, taken, content⟩ := writeByte_fits [0, 1] pb (by
    rw [List.length_append, length, maxsize, List.length_cons, List.length_singleton])
  have refused := writeByte_long [97] after (by
    rw [content, List.length_append, List.length_append, length, maxsize,
      List.length_cons, List.length_singleton, List.length_singleton]
    omega)
  have whole : writeVarstr [97] pb = ⟨after, some .overflow⟩ := by
    rw [writeVarstr, if_neg short, writeUint16, size, taken]
    exact refused
  rw [whole]
  exact ⟨rfl, content⟩

theorem writeVarstr_changes (pb : PackBuffer) (length : pb.content.length = 1073741822) :
    ¬ AllOrNothing (writeVarstr [97]) pb := by
  obtain ⟨overflow, content⟩ := writeVarstr_overflows pb length
  intro kept
  have longer := congrArg List.length (content.symm.trans (kept overflow))
  rw [List.length_append, List.length_cons, List.length_singleton] at longer
  omega

theorem zeros_some (size : Nat) (room : size ≤ maxsize) :
    ∃ pb : PackBuffer, pb.content = List.replicate size 0 := by
  obtain ⟨pb, -, content⟩ := BlockBuffer.append_some
    (BlockBuffer.fresh : PackBuffer) (List.replicate size 0)
    (show ([] ++ List.replicate size (0 : UInt8)).length ≤ _ by
      rw [List.nil_append, List.length_replicate]
      exact room)
  exact ⟨pb, content⟩

theorem overflow_keeps_bytes_string :
    ∃ pb : PackBuffer, pb.content = List.replicate 1073741822 0 ∧
      (∃ written part rest,
        (WriteCall.writeVarstr [97]).parts.parts = written ++ part :: rest ∧
          ((WriteCall.writeVarstr [97]).perform pb).m_buffer.content =
            pb.content ++ written.flatten ∧
          maxsize < (pb.content ++ written.flatten ++ part).length) ∧
      ((WriteCall.writeVarstr [97]).Single →
        AllOrNothing (WriteCall.writeVarstr [97]).perform pb) := by
  obtain ⟨pb, zeros⟩ := zeros_some 1073741822 (Nat.le_of_ble_eq_true rfl)
  have length : pb.content.length = 1073741822 := by
    rw [zeros, List.length_replicate]
  exact ⟨pb, zeros, overflow_keeps_bytes (.writeVarstr [97]) pb (writeVarstr_overflows pb length).1⟩

/-- A refused string leaves its length, and a refused replacement has cut off the
byte it should replace. -/
theorem refused_writes_change_bytes :
    ∃ pb : PackBuffer, pb.content = List.replicate 1073741822 0 ∧
      ¬ AllOrNothing (writeVarstr [97]) pb ∧
      ¬ AllOrNothing (replaceUint32 1073741821 7) pb := by
  obtain ⟨pb, zeros⟩ := zeros_some 1073741822 (Nat.le_of_ble_eq_true rfl)
  have length : pb.content.length = 1073741822 := by
    rw [zeros, List.length_replicate]
  refine ⟨pb, zeros, writeVarstr_changes pb length, ?_⟩
  rw [replaceUint32, replace_allOrNothing_iff, BlockBuffer.size, length, maxsize,
    storeUint32_length]
  omega

end FPayNode.PartialWrites
