import FPayNode.ByteStream
import FPayNode.KeyedLists
import Mathlib.Data.Prod.Lex

/-!
What the operators of `core/base/ByteStream.h` write and read, as bytes: the
types that can be nested in each other, the bytes of a value, and the value
that is read from bytes. Sets and maps are the ascending lists that iterating
over them gives.
-/

namespace FPayNode.BinaryValues

open DecimalText ByteStream KeyedLists

inductive Ty where
  | bool | uint8 | uint16 | uint32 | uint64 | string
  | pair (first second : Ty)
  | vector (element : Ty)
  | set (element : Ty)
  | map (key value : Ty)

/-- A type and the order of its `operator <`. -/
structure OrderedType where
  carrier : Type
  order : LinearOrder carrier

namespace OrderedType

instance carrierOrder (ordered : OrderedType) : LinearOrder ordered.carrier := ordered.order

/-- An unsigned word, by its number. -/
def word {Word : Type} (toNat : Word → Nat) (injective : Function.Injective toNat) : OrderedType :=
  ⟨Word, LinearOrder.lift' toNat injective⟩

def sequence (element : OrderedType) : OrderedType := ⟨List element.carrier, inferInstance⟩

def product (first second : OrderedType) : OrderedType :=
  ⟨Lex (first.carrier × second.carrier), inferInstance⟩

def keyOf (first second : OrderedType) (pair : (product first second).carrier) : first.carrier :=
  (ofLex pair).1

def keyed {Key : Type} [LinearOrder Key] (entry : OrderedType) (key : entry.carrier → Key) :
    OrderedType :=
  ⟨Keyed key, inferInstance⟩

end OrderedType

open OrderedType in
def Ty.type : Ty → OrderedType
  | .bool => ⟨Bool, inferInstance⟩
  | .uint8 => word UInt8.toNat fun _ _ => UInt8.toNat_inj.mp
  | .uint16 => word UInt16.toNat fun _ _ => UInt16.toNat_inj.mp
  | .uint32 => word UInt32.toNat fun _ _ => UInt32.toNat_inj.mp
  | .uint64 => word UInt64.toNat fun _ _ => UInt64.toNat_inj.mp
  | .string => sequence (word UInt8.toNat fun _ _ => UInt8.toNat_inj.mp)
  | .pair first second => product first.type second.type
  | .vector element => sequence element.type
  | .set element => keyed element.type id
  | .map key value => keyed (product key.type value.type) (keyOf key.type value.type)

/-- The values of a type. -/
def Ty.El (ty : Ty) : Type := ty.type.carrier

/-! Writing. -/

def encodePair {First Second : Type} (first : First → Bytes) (second : Second → Bytes)
    (pair : Lex (First × Second)) : Bytes :=
  first (ofLex pair).1 ++ second (ofLex pair).2

/-- `marshal_container`: the number of elements in 32 bits, and the elements. -/
def encodeContainer {Element : Type} (element : Element → Bytes) (elements : List Element) : Bytes :=
  storeUint32 (XHTONL (UInt32.ofNat elements.length)) ++ elements.flatMap element

def encodeString (str : Bytes) : Bytes :=
  storeUint16 (XHTONS (UInt16.ofNat str.length)) ++ str

def encode : (ty : Ty) → ty.El → Bytes
  | .bool => fun (sign : Bool) => [if sign then 1 else 0]
  | .uint8 => fun (i8 : UInt8) => [i8]
  | .uint16 => fun (i16 : UInt16) => storeUint16 (XHTONS i16)
  | .uint32 => fun (i32 : UInt32) => storeUint32 (XHTONL i32)
  | .uint64 => fun (i64 : UInt64) => storeUint64 (XHTONLL i64)
  | .string => encodeString
  | .pair first second => encodePair (encode first) (encode second)
  | .vector element => encodeContainer (encode element)
  | .set element => fun elements => encodeContainer (encode element) elements.1
  | .map key value => fun entries =>
      encodeContainer (encodePair (encode key) (encode value)) entries.1

/-! Reading. -/

abbrev Decoder (Value : Type) := Bytes → Except Exn (Value × Bytes)

namespace Decoder
variable {Value Result : Type}

def ret (value : Value) : Decoder Value := fun bytes => .ok (value, bytes)

/-- One decoder behind the other. -/
def bind (decoder : Decoder Value) (next : Value → Decoder Result) : Decoder Result := fun bytes =>
  match decoder bytes with
  | .error exn => .error exn
  | .ok (value, rest) => next value rest

end Decoder

/-- `pop_fetch_ptr`, with the bytes behind the pointer. -/
def popBytes (k : Nat) : Decoder Bytes := fun bytes =>
  if bytes.length < k then .error .readStreamExn else .ok (bytes.take k, bytes.drop k)

def decodeString : Decoder Bytes := Decoder.bind readUint16 fun size => popBytes size.toNat

def decodePair {First Second : Type} (first : Decoder First) (second : Decoder Second) :
    Decoder (Lex (First × Second)) :=
  first.bind fun one => second.bind fun two => .ret (toLex (one, two))

/-- The loop of `unmarshal_container`. -/
def decodeElements {Element Container : Type} (element : Decoder Element)
    (insert : Container → Element → Container) : Nat → Container → Decoder Container
  | 0, container => .ret container
  | count + 1, container => element.bind fun tmp =>
      decodeElements element insert count (insert container tmp)

def decodeContainer {Element Container : Type} (element : Decoder Element)
    (insert : Container → Element → Container) (empty : Container) : Decoder Container :=
  Decoder.bind readUint32 fun count => decodeElements element insert count.toNat empty

def push_back {Element : Type} (elements : List Element) (element : Element) : List Element :=
  elements ++ [element]

def decode : (ty : Ty) → Decoder ty.El
  | .bool => Decoder.bind readUint8 fun i8 => .ret (if i8 == 0 then false else true)
  | .uint8 => readUint8
  | .uint16 => readUint16
  | .uint32 => readUint32
  | .uint64 => readUint64
  | .string => decodeString
  | .pair first second => decodePair (decode first) (decode second)
  | .vector element => decodeContainer (decode element) push_back []
  | .set element => decodeContainer (decode element) Keyed.insert Keyed.empty
  | .map key value => decodeContainer (decodePair (decode key) (decode value)) Keyed.insert Keyed.empty

/-! What was written is read. -/

/-- Strings whose length fits 16 bits, and containers whose size fits 32. -/
def Small : (ty : Ty) → ty.El → Prop
  | .string => fun (str : Bytes) => str.length ≤ 0xFFFF
  | .pair first second => fun pair => Small first (ofLex pair).1 ∧ Small second (ofLex pair).2
  | .vector element => fun (elements : List element.El) =>
      elements.length < 2 ^ 32 ∧ ∀ one ∈ elements, Small element one
  | .set element => fun elements =>
      elements.1.length < 2 ^ 32 ∧ ∀ one ∈ elements.1, Small element one
  | .map key value => fun entries => entries.1.length < 2 ^ 32 ∧
      ∀ entry ∈ entries.1, Small key (ofLex entry).1 ∧ Small value (ofLex entry).2
  | .bool | .uint8 | .uint16 | .uint32 | .uint64 => fun _ => True

section RoundTrip
variable {Value Element Container First Second : Type}

/-- Reading behind what was written for a value gives the value, and leaves
what follows. -/
def RoundTrips (encoder : Value → Bytes) (decoder : Decoder Value) (small : Value → Prop) : Prop :=
  ∀ value rest, small value → decoder (encoder value ++ rest) = .ok (value, rest)

theorem decodePair_roundTrips (first : First → Bytes) (second : Second → Bytes)
    (firstDecoder : Decoder First) (secondDecoder : Decoder Second)
    (firstSmall : First → Prop) (secondSmall : Second → Prop)
    (firstTrips : RoundTrips first firstDecoder firstSmall)
    (secondTrips : RoundTrips second secondDecoder secondSmall) :
    RoundTrips (encodePair first second) (decodePair firstDecoder secondDecoder)
      fun pair => firstSmall (ofLex pair).1 ∧ secondSmall (ofLex pair).2 := by
  rintro pair rest ⟨small, small'⟩
  simp only [decodePair, encodePair, Decoder.bind, List.append_assoc, firstTrips _ _ small,
    secondTrips _ _ small']
  rfl

theorem decodeString_roundTrips :
    RoundTrips encodeString decodeString fun str => str.length ≤ 0xFFFF := by
  intro str rest small
  have size : (UInt16.ofNat str.length).toNat = str.length :=
    UInt16.toNat_ofNat_of_lt' (by rw [UInt16.size]; omega)
  have enough : ¬ (str ++ rest).length < str.length := by
    rw [List.length_append]
    omega
  simp only [decodeString, encodeString, Decoder.bind, List.append_assoc, readUint16_written,
    popBytes, size, if_neg enough, List.take_left, List.drop_left]

theorem decodeElements_written (encoder : Element → Bytes) (decoder : Decoder Element)
    (small : Element → Prop) (trips : RoundTrips encoder decoder small)
    (insert : Container → Element → Container) (elements : List Element) (container : Container)
    (rest : Bytes) (allSmall : ∀ element ∈ elements, small element) :
    decodeElements decoder insert elements.length container (elements.flatMap encoder ++ rest) =
      .ok (elements.foldl insert container, rest) := by
  induction elements generalizing container with
  | nil => rfl
  | cons element elements ih =>
      have first := trips element (elements.flatMap encoder ++ rest)
        (allSmall element List.mem_cons_self)
      simp only [List.length_cons, decodeElements, Decoder.bind, List.flatMap_cons,
        List.append_assoc, first, List.foldl_cons]
      exact ih (insert container element) fun other member =>
        allSmall other (List.mem_cons_of_mem element member)

theorem decodeContainer_written (encoder : Element → Bytes) (decoder : Decoder Element)
    (small : Element → Prop) (trips : RoundTrips encoder decoder small)
    (insert : Container → Element → Container) (empty : Container) (elements : List Element)
    (rest : Bytes) (count : elements.length < 2 ^ 32)
    (allSmall : ∀ element ∈ elements, small element) :
    decodeContainer decoder insert empty (encodeContainer encoder elements ++ rest) =
      .ok (elements.foldl insert empty, rest) := by
  have size : (UInt32.ofNat elements.length).toNat = elements.length :=
    UInt32.toNat_ofNat_of_lt' (by rw [UInt32.size]; exact count)
  simp only [decodeContainer, encodeContainer, Decoder.bind, List.append_assoc,
    readUint32_written, size]
  exact decodeElements_written encoder decoder small trips insert elements empty rest allSmall

theorem pushed_back (elements pushed : List Element) :
    elements.foldl push_back pushed = pushed ++ elements := by
  induction elements generalizing pushed with
  | nil => exact (List.append_nil _).symm
  | cons element elements ih => rw [List.foldl_cons, ih, push_back, List.append_assoc]; rfl

end RoundTrip

theorem decode_encode (ty : Ty) : RoundTrips (encode ty) (decode ty) (Small ty) := by
  induction ty with
  | bool =>
      intro (sign : Bool) rest _
      cases sign <;> rfl
  | uint8 =>
      intro value rest _
      rfl
  | uint16 => exact fun value rest _ => readUint16_written value rest
  | uint32 => exact fun value rest _ => readUint32_written value rest
  | uint64 => exact fun value rest _ => readUint64_written value rest
  | string => exact decodeString_roundTrips
  | pair first second ih ih' => exact decodePair_roundTrips _ _ _ _ _ _ ih ih'
  | vector element ih =>
      intro (elements : List element.El) rest small
      have done := decodeContainer_written _ _ _ ih push_back [] elements rest small.1 small.2
      rw [pushed_back] at done
      exact done
  | set element ih =>
      intro (elements : Keyed (id : element.type.carrier → element.type.carrier)) rest small
      -- Inserted in ascending order, the elements give the set they are from.
      have done := decodeContainer_written _ _ _ ih Keyed.insert
        (Keyed.empty : Keyed (id : element.type.carrier → element.type.carrier)) elements.1 rest
        small.1 small.2
      exact done.trans (congrArg (fun read => Except.ok (read, rest)) (Keyed.inserted_self elements))
  | map key value ih ih' =>
      intro (entries : Keyed (OrderedType.keyOf key.type value.type)) rest small
      have done := decodeContainer_written _ _ _ (decodePair_roundTrips _ _ _ _ _ _ ih ih')
        Keyed.insert (Keyed.empty : Keyed (OrderedType.keyOf key.type value.type)) entries.1 rest
        small.1 small.2
      exact done.trans (congrArg (fun read => Except.ok (read, rest)) (Keyed.inserted_self entries))

/-! What is read. -/

/-- No string and no container has more elements than this. -/
def Within (limit : Nat) : (ty : Ty) → ty.El → Prop
  | .string => fun (str : Bytes) => str.length ≤ limit
  | .pair first second => fun pair =>
      Within limit first (ofLex pair).1 ∧ Within limit second (ofLex pair).2
  | .vector element => fun (elements : List element.El) =>
      elements.length ≤ limit ∧ ∀ one ∈ elements, Within limit element one
  | .set element => fun elements =>
      elements.1.length ≤ limit ∧ ∀ one ∈ elements.1, Within limit element one
  | .map key value => fun entries => entries.1.length ≤ limit ∧
      ∀ entry ∈ entries.1, Within limit key (ofLex entry).1 ∧ Within limit value (ofLex entry).2
  | .bool | .uint8 | .uint16 | .uint32 | .uint64 => fun _ => True

/-- Types without `bool`, `set` and `map`, whose values are written in one way. -/
def Canonical : Ty → Bool
  | .bool | .set _ | .map _ _ => false
  | .uint8 | .uint16 | .uint32 | .uint64 | .string => true
  | .pair first second => Canonical first && Canonical second
  | .vector element => Canonical element

theorem within_mono (limit more : Nat) (grows : limit ≤ more) (ty : Ty) (value : ty.El)
    (within : Within limit ty value) : Within more ty value := by
  induction ty with
  | bool | uint8 | uint16 | uint32 | uint64 => exact trivial
  | string => exact Nat.le_trans within grows
  | pair first second ih ih' => exact ⟨ih _ within.1, ih' _ within.2⟩
  | vector element ih | set element ih =>
      exact ⟨within.1.trans grows, fun one member => ih one (within.2 one member)⟩
  | map key value ih ih' =>
      exact ⟨within.1.trans grows, fun entry member =>
        ⟨ih _ (within.2 entry member).1, ih' _ (within.2 entry member).2⟩⟩

section Yields
variable {Value Result Element Container : Type}

/-- Whatever the bytes are: the decoder throws the exception of the stream, or
its value is related to the bytes it used. -/
def Yields (decoder : Decoder Value) (Used : Value → Bytes → Prop) : Prop :=
  ∀ bytes, decoder bytes = .error .readStreamExn ∨
    ∃ value used rest, decoder bytes = .ok (value, rest) ∧ bytes = used ++ rest ∧ Used value used

theorem yields_mono (decoder : Decoder Value) (Used More : Value → Bytes → Prop)
    (yields : Yields decoder Used) (weaker : ∀ value used, Used value used → More value used) :
    Yields decoder More := by
  intro bytes
  rcases yields bytes with threw | ⟨value, used, rest, done, parts, holds⟩
  · exact .inl threw
  · exact .inr ⟨value, used, rest, done, parts, weaker value used holds⟩

theorem yields_ret (value : Value) (Used : Value → Bytes → Prop) (holds : Used value []) :
    Yields (.ret value) Used :=
  fun bytes => .inr ⟨value, [], bytes, rfl, rfl, holds⟩

theorem yields_bind (decoder : Decoder Value) (next : Value → Decoder Result)
    (Used : Value → Bytes → Prop) (Next : Result → Bytes → Prop)
    (yields : Yields decoder Used)
    (then_ : ∀ value first, Used value first →
      Yields (next value) fun result second => Next result (first ++ second)) :
    Yields (decoder.bind next) Next := by
  intro bytes
  rcases yields bytes with threw | ⟨value, first, rest, done, parts, holds⟩
  · left
    rw [Decoder.bind, threw]
  · have same : decoder.bind next bytes = next value rest := by rw [Decoder.bind, done]
    rw [same]
    rcases then_ value first holds rest with threw | ⟨result, second, left_, found, parts', holds'⟩
    · exact .inl threw
    · refine .inr ⟨result, first ++ second, left_, found, ?_, holds'⟩
      rw [parts, parts', List.append_assoc]

/-- The loop reads as many elements as it should, one behind the other. -/
theorem yields_elements (element : Decoder Element) (Used : Element → Bytes → Prop)
    (yields : Yields element Used) (insert : Container → Element → Container) (count : Nat)
    (container : Container) :
    Yields (decodeElements element insert count container) fun result used =>
      ∃ items : List (Element × Bytes), items.length = count ∧
        result = (items.map Prod.fst).foldl insert container ∧
        used = (items.map Prod.snd).flatten ∧ ∀ item ∈ items, Used item.1 item.2 := by
  induction count generalizing container with
  | zero => exact yields_ret _ _ ⟨[], rfl, rfl, rfl, fun _ member => absurd member List.not_mem_nil⟩
  | succ count ih =>
      apply yields_bind element _ Used _ yields
      intro tmp first holds
      -- The first element has the bytes `first`, the others are read behind them.
      apply yields_mono _ _ _ (ih (insert container tmp))
      rintro result second ⟨items, length, folded, flat, all⟩
      refine ⟨(tmp, first) :: items, by rw [List.length_cons, length], folded, ?_, ?_⟩
      · rw [flat]
        rfl
      · intro item member
        rcases List.mem_cons.mp member with same | later
        · exact same ▸ holds
        · exact all item later

theorem yields_word (read : Decoder Value) (stored : Value → Bytes)
    (threw : ∀ data exn, read data = .error exn → exn = .readStreamExn)
    (bytes : ∀ data rest word, read data = .ok (word, rest) → data = stored word ++ rest) :
    Yields read fun word used => used = stored word := by
  intro data
  cases done : read data with
  | error exn => exact .inl (congrArg Except.error (threw data exn done))
  | ok pair => exact .inr ⟨pair.1, stored pair.1, pair.2, rfl, bytes data pair.2 pair.1 done, rfl⟩

theorem yields_readUint8 : Yields readUint8 fun i8 used => used = [i8] := by
  apply yields_word _ _ _ readUint8_bytes
  intro data exn done
  simp only [readUint8] at done
  split at done
  · exact (Except.error.inj done).symm
  · cases done

theorem yields_readUint16 : Yields readUint16 fun i16 used => used = storeUint16 (XHTONS i16) := by
  apply yields_word _ _ _ readUint16_bytes
  intro data exn done
  simp only [readUint16] at done
  split at done
  · cases done
  · exact (Except.error.inj done).symm

theorem yields_readUint32 : Yields readUint32 fun i32 used => used = storeUint32 (XHTONL i32) := by
  apply yields_word _ _ _ readUint32_bytes
  intro data exn done
  simp only [readUint32] at done
  split at done
  · cases done
  · exact (Except.error.inj done).symm

theorem yields_readUint64 : Yields readUint64 fun i64 used => used = storeUint64 (XHTONLL i64) := by
  apply yields_word _ _ _ readUint64_bytes
  intro data exn done
  simp only [readUint64] at done
  split at done
  · cases done
  · exact (Except.error.inj done).symm

theorem yields_popBytes (k : Nat) :
    Yields (popBytes k) fun piece used => used = piece ∧ piece.length = k := by
  intro bytes
  rw [popBytes]
  split
  · exact .inl rfl
  · next enough =>
      refine .inr ⟨_, _, _, rfl, (List.take_append_drop k bytes).symm, rfl, ?_⟩
      rw [List.length_take]
      omega

/-- A string is what follows its length. -/
theorem yields_string : Yields decodeString fun str used => used = encodeString str := by
  apply yields_bind readUint16 _ _ _ yields_readUint16
  rintro size first rfl
  apply yields_mono _ _ _ (yields_popBytes size.toNat)
  rintro str second ⟨rfl, length⟩
  rw [encodeString, length, UInt16.ofNat_toNat]

/-- A container is as many elements as its prefix says, each from its own bytes. -/
theorem yields_container (element : Decoder Element) (Used : Element → Bytes → Prop)
    (yields : Yields element Used) (insert : Container → Element → Container) (empty : Container) :
    Yields (decodeContainer element insert empty) fun result used =>
      ∃ items : List (Element × Bytes), result = (items.map Prod.fst).foldl insert empty ∧
        used = storeUint32 (XHTONL (UInt32.ofNat items.length)) ++ (items.map Prod.snd).flatten ∧
        ∀ item ∈ items, Used item.1 item.2 := by
  apply yields_bind readUint32 _ _ _ yields_readUint32
  rintro count first rfl
  apply yields_mono _ _ _ (yields_elements element Used yields insert count.toNat empty)
  rintro result second ⟨items, length, folded, flat, all⟩
  refine ⟨items, folded, ?_, all⟩
  rw [length, UInt32.ofNat_toNat, flat]

end Yields

/-- A value and the bytes it was read from: at least one, no fewer than a
container has elements, and for a canonical type the bytes of the value. -/
structure ReadFrom (ty : Ty) (value : ty.El) (used : Bytes) : Prop where
  consumed : 0 < used.length
  within : Within used.length ty value
  encoded : Canonical ty = true → used = encode ty value

theorem pieces_length (element : Ty) (items : List (element.El × Bytes))
    (all : ∀ item ∈ items, ReadFrom element item.1 item.2) :
    items.length ≤ (items.map Prod.snd).flatten.length ∧
      ∀ item ∈ items, item.2.length ≤ (items.map Prod.snd).flatten.length := by
  induction items with
  | nil => exact ⟨Nat.le_refl 0, fun _ member => absurd member List.not_mem_nil⟩
  | cons item items ih =>
      obtain ⟨count, pieces⟩ := ih fun other member => all other (List.mem_cons_of_mem item member)
      have one := (all item List.mem_cons_self).consumed
      simp only [List.map_cons, List.flatten_cons, List.length_append, List.length_cons]
      refine ⟨by omega, fun other member => ?_⟩
      rcases List.mem_cons.mp member with same | later
      · subst same
        omega
      · have piece := pieces other later
        omega

/-- The elements that were read fit the bytes of the container. -/
theorem container_within (element : Ty) (items : List (element.El × Bytes)) (count used : Bytes)
    (all : ∀ item ∈ items, ReadFrom element item.1 item.2)
    (parts : used = count ++ (items.map Prod.snd).flatten) :
    items.length ≤ used.length ∧
      ∀ one ∈ items.map Prod.fst, Within used.length element one := by
  obtain ⟨length, pieces⟩ := pieces_length element items all
  have flat : used.length = count.length + (items.map Prod.snd).flatten.length := by
    rw [parts, List.length_append]
  refine ⟨by omega, fun one member => ?_⟩
  obtain ⟨item, inItems, same⟩ := List.mem_map.mp member
  subst same
  have piece := pieces item inItems
  exact within_mono item.2.length _ (by omega) element item.1 (all item inItems).within

theorem elements_encoded (element : Ty) (items : List (element.El × Bytes))
    (all : ∀ item ∈ items, ReadFrom element item.1 item.2) (canonical : Canonical element = true) :
    (items.map Prod.snd).flatten = (items.map Prod.fst).flatMap (encode element) := by
  induction items with
  | nil => rfl
  | cons item items ih =>
      have rest := ih fun other member => all other (List.mem_cons_of_mem item member)
      simp only [List.map_cons, List.flatten_cons, List.flatMap_cons]
      rw [rest, (all item List.mem_cons_self).encoded canonical]

theorem decode_pair_yields (first second : Ty) (one : Yields (decode first) (ReadFrom first))
    (two : Yields (decode second) (ReadFrom second)) :
    Yields (decode (.pair first second)) (ReadFrom (.pair first second)) := by
  apply yields_bind (decode first) _ _ _ one
  intro value used from_
  apply yields_bind (decode second) _ _ _ two
  intro value' used' from'
  apply yields_ret
  rw [List.append_nil]
  have length : (used ++ used').length = used.length + used'.length := List.length_append
  have consumed := from_.consumed
  refine ⟨by omega, ⟨?_, ?_⟩, fun canonical => ?_⟩
  · exact within_mono _ _ (by omega) first value from_.within
  · exact within_mono _ _ (by omega) second value' from'.within
  · obtain ⟨left_, right_⟩ := Bool.and_eq_true_iff.mp canonical
    rw [from_.encoded left_, from'.encoded right_]
    rfl

/-- Sets and maps hold no element that was not read, and no more of them. -/
theorem keyed_yields {Key : Type} [LinearOrder Key] (element : Ty) (key : element.El → Key)
    (one : Yields (decode element) (ReadFrom element)) :
    Yields (decodeContainer (decode element) Keyed.insert (Keyed.empty : Keyed key))
      fun keyed used => 0 < used.length ∧ keyed.1.length ≤ used.length ∧
        ∀ entry ∈ keyed.1, Within used.length element entry := by
  apply yields_mono _ _ _ (yields_container (decode element) _ one Keyed.insert Keyed.empty)
  rintro keyed used ⟨items, rfl, parts, all⟩
  obtain ⟨length, within⟩ := container_within element items _ used all parts
  refine ⟨?_, ?_, fun entry member => ?_⟩
  · rw [parts, List.length_append]
    exact Nat.lt_add_right _ (Nat.succ_pos 3)
  · have inserted := Keyed.inserted_length (items.map Prod.fst) (Keyed.empty : Keyed key)
    rw [List.length_map] at inserted
    exact inserted.trans ((Nat.zero_add _).trans_le length)
  · rcases Keyed.mem_inserted (items.map Prod.fst) Keyed.empty entry member with read | old
    · exact within entry read
    · exact absurd old List.not_mem_nil

/-- Whatever the bytes are. -/
theorem decode_yields (ty : Ty) : Yields (decode ty) (ReadFrom ty) := by
  induction ty with
  | bool =>
      apply yields_bind readUint8 _ _ _ yields_readUint8
      rintro i8 first rfl
      exact yields_ret _ _ ⟨Nat.one_pos, trivial, fun canonical => nomatch canonical⟩
  | uint8 =>
      apply yields_mono _ _ _ yields_readUint8
      rintro value used rfl
      exact ⟨Nat.one_pos, trivial, fun _ => rfl⟩
  | uint16 =>
      apply yields_mono _ _ _ yields_readUint16
      rintro value used rfl
      exact ⟨Nat.two_pos, trivial, fun _ => rfl⟩
  | uint32 =>
      apply yields_mono _ _ _ yields_readUint32
      rintro value used rfl
      exact ⟨Nat.succ_pos 3, trivial, fun _ => rfl⟩
  | uint64 =>
      apply yields_mono _ _ _ yields_readUint64
      rintro value used rfl
      exact ⟨Nat.succ_pos 7, trivial, fun _ => rfl⟩
  | string =>
      apply yields_mono _ _ _ yields_string
      rintro str used rfl
      have length : (encodeString str).length = 2 + str.length := by
        rw [encodeString, List.length_append]
        rfl
      exact ⟨by omega, (by omega : str.length ≤ (encodeString str).length), fun _ => rfl⟩
  | pair first second one two => exact decode_pair_yields first second one two
  | vector element one =>
      apply yields_mono _ _ _ (yields_container (decode element) _ one push_back [])
      rintro value used ⟨items, folded, parts, all⟩
      rw [pushed_back, List.nil_append] at folded
      subst folded
      obtain ⟨length, within⟩ := container_within element items _ used all parts
      refine ⟨?_, ⟨?_, within⟩, fun canonical => ?_⟩
      · rw [parts, List.length_append]
        exact Nat.lt_add_right _ (Nat.succ_pos 3)
      · rw [List.length_map]
        exact length
      · rw [parts, elements_encoded element items all canonical]
        change _ = encodeContainer _ (items.map Prod.fst)
        rw [encodeContainer, List.length_map]
  | set element one =>
      apply yields_mono _ _ _ (keyed_yields element (id : element.type.carrier → _) one)
      rintro keyed used ⟨consumed, length, within⟩
      exact ⟨consumed, ⟨length, within⟩, fun canonical => nomatch canonical⟩
  | map key value one two =>
      apply yields_mono _ _ _ (keyed_yields (.pair key value)
        (OrderedType.keyOf key.type value.type) (decode_pair_yields key value one two))
      rintro keyed used ⟨consumed, length, within⟩
      exact ⟨consumed, ⟨length, within⟩, fun canonical => nomatch canonical⟩

end FPayNode.BinaryValues
