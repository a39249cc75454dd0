import FPayNode.Messages
import FPayNode.TextLayout
import Mathlib.Data.List.TakeWhile

/-!
The JSON text that the serialization library writes for the node's records:
members in declaration order, four blanks for each level, the whole object
under the automatic name `value0`. Reading accepts the texts it writes and
cuts strings at a zero byte. This is an instance of the conversions the node
relies on.
-/

namespace FPayNode.CerealJson

open DecimalText TextLayout Messages

def blanks (count : Nat) : Bytes := List.replicate count 32

/-- The name of a member, on a line of its own after a brace or a comma. -/
def opened (indent : Nat) (name : String) : Literal :=
  ⟨123 :: 10 :: (blanks indent ++ ascii name), _, _, rfl, by decide⟩

def next (indent : Nat) (name : String) : Literal :=
  ⟨44 :: 10 :: (blanks indent ++ ascii name), _, _, rfl, by decide⟩

def closed (indent : Nat) (bracket : UInt8) : Literal :=
  ⟨10 :: (blanks indent ++ [bracket]), _, _, rfl, by decide⟩

def int64 : Layout Int64 :=
  number.convert Int64.ofInt Int64.toInt fun n _ => Int64.ofInt_toInt n

def uint64 : Layout UInt64 :=
  number.convert (fun n => UInt64.ofNat n.toNat) (fun n => (n.toNat : Int)) fun n _ => by simp

def uint32 : Layout UInt32 :=
  number.convert (fun n => UInt32.ofNat n.toNat) (fun n => (n.toNat : Int)) fun n _ => by simp

/-- The members of a transaction at one level, closed at the level above. -/
def transactionAt (indent close : Nat) : Layout Transaction :=
  Layout.after (opened indent "\"id\": ")
    (((quoted.followedBy (next indent "\"from\": ")
      (quoted.followedBy (next indent "\"to\": ")
        (quoted.followedBy (next indent "\"value\": ")
          (int64.followedBy (next indent "\"ts\": ") uint64)))).convert
      (fun t => (⟨t.1, t.2.1, t.2.2.1, t.2.2.2.1, t.2.2.2.2⟩ : Transaction))
      (fun tx => (tx._id, tx._from, tx._to, tx._value, tx._timestamp))
      (fun _ _ => rfl)).before (closed close 125))

def transactionList : Layout (List Transaction) :=
  Layout.array
    { empty := ⟨[91, 93], _, _, rfl, by decide⟩
      opening := ⟨91 :: 10 :: blanks 12, _, _, rfl, by decide⟩
      comma := ⟨44 :: 10 :: blanks 12, _, _, rfl, by decide⟩
      close := closed 8 93
      emptyApart := fun _ => rfl
      commaApart := fun _ => rfl }
    (transactionAt 16 12)

def blockMembers : Layout Block :=
  Layout.after (opened 8 "\"id\": ")
    (((quoted.followedBy (next 8 "\"prev\": ")
      (quoted.followedBy (next 8 "\"next\": ")
        (quoted.followedBy (next 8 "\"ts\": ")
          (uint64.followedBy (next 8 "\"txs\": ") transactionList)))).convert
      (fun t => (⟨t.1, t.2.1, t.2.2.1, t.2.2.2.1, t.2.2.2.2⟩ : Block))
      (fun block => (block._id, block._prev, block._next, block._timestamp, block._txList))
      (fun _ _ => rfl)).before (closed 4 125))

def nodeMembers : Layout NodeInfo :=
  Layout.after (opened 8 "\"addr\": ")
    (((quoted.followedBy (next 8 "\"hostport\": ")
      (quoted.followedBy (next 8 "\"ts\": ")
        (uint64.followedBy (next 8 "\"action\": ") uint32))).convert
      (fun t => (⟨t.1, t.2.1, t.2.2.1, t.2.2.2⟩ : NodeInfo))
      (fun info => (info._address, info._hostport, info._timestamp, info._action))
      (fun _ _ => rfl)).before (closed 4 125))

/-- The automatic name around a record. -/
def document {Message : Type} (members : Layout Message) : Layout Message :=
  Layout.after (opened 4 "\"value0\": ") (members.before (closed 0 125))

def cString (text : Bytes) : Bytes := text.takeWhile (· != 0)

def cTransaction (tx : Transaction) : Transaction :=
  { tx with _id := cString tx._id, _from := cString tx._from, _to := cString tx._to }

def cBlock (block : Block) : Block :=
  { block with
    _id := cString block._id
    _prev := cString block._prev
    _next := cString block._next
    _txList := block._txList.map cTransaction }

def cNode (info : NodeInfo) : NodeInfo :=
  { info with _address := cString info._address, _hostport := cString info._hostport }

def codec {Message : Type} (members : Layout Message) (cut : Message → Message) :
    Codec Message where
  toString := (document members).write
  fromString text old :=
    match (document members).read text with
    | some (message, []) => (true, cut message)
    | _ => (false, old)

def cerealJson : Cereal where
  node := codec nodeMembers cNode
  transaction := codec (transactionAt 8 4) cTransaction
  block := codec blockMembers cBlock

theorem cString_clean (text : Bytes) : CString (cString text) := by
  intro member
  simpa using List.mem_takeWhile_imp member

theorem cString_of_clean (text : Bytes) (clean : CString text) : cString text = text := by
  apply List.takeWhile_eq_self_iff.mpr
  intro byte member
  simp only [bne_iff_ne]
  rintro rfl
  exact clean member

theorem cTransaction_clean (tx : Transaction) : (cTransaction tx).Clean :=
  ⟨cString_clean _, cString_clean _, cString_clean _⟩

theorem cTransaction_of_clean (tx : Transaction) (clean : tx.Clean) : cTransaction tx = tx := by
  simp [cTransaction, cString_of_clean _ clean.1, cString_of_clean _ clean.2.1,
    cString_of_clean _ clean.2.2]

theorem cBlock_clean (block : Block) : (cBlock block).Clean := by
  refine ⟨cString_clean _, cString_clean _, cString_clean _, ?_⟩
  intro tx member
  obtain ⟨source, _, rfl⟩ := List.mem_map.mp member
  exact cTransaction_clean source

theorem cBlock_of_clean (block : Block) (clean : block.Clean) : cBlock block = block := by
  have list : block._txList.map cTransaction = block._txList := by
    calc block._txList.map cTransaction = block._txList.map id :=
          List.map_congr_left fun tx member => cTransaction_of_clean tx (clean.2.2.2 tx member)
      _ = block._txList := List.map_id _
  simp [cBlock, cString_of_clean _ clean.1, cString_of_clean _ clean.2.1,
    cString_of_clean _ clean.2.2.1, list]

theorem strip_head (byte : UInt8) (literal text rest : Bytes)
    (found : strip (byte :: literal) text = some rest) : ∃ tail, text = byte :: tail := by
  cases text with
  | nil => simp [strip] at found
  | cons first text =>
      simp only [strip] at found
      split at found
      · next same => exact ⟨text, by rw [same]⟩
      · cases found

theorem decimal_head (n : Int) (text : Bytes) : decimal n ≠ 123 :: text := by
  intro same
  simp only [decimal] at same
  split at same
  · cases same
  · obtain ⟨byte, rest, head, is⟩ := natText_head n.natAbs
    rw [head] at same
    cases same
    revert is
    decide

theorem document_object {Message : Type} (members : Layout Message) (text : Bytes)
    (found : ((document members).read text).isSome) : parseExact text = none := by
  cases head : strip (opened 4 "\"value0\": ").text text with
  | none => simp [document, Layout.after, head] at found
  | some rest =>
      obtain ⟨tail, rfl⟩ := strip_head _ _ _ _ head
      cases exact : parseExact (123 :: tail) with
      | none => rfl
      | some n => exact absurd (parseExact_some _ _ exact).2 (decimal_head n tail)

theorem codec_lawful {Message : Type} (members : Layout Message) (cut : Message → Message)
    (Clean : Message → Prop) (valid : ∀ message, members.Valid message)
    (cuts : ∀ message, Clean (cut message))
    (keeps : ∀ message, Clean message → cut message = message) :
    (codec members cut).Lawful Clean where
  nonempty message := by simp [codec, document, Layout.after, opened]
  round message old clean := by
    have round := (document members).round message [] (valid message) (by simp [Ends])
    rw [List.append_nil] at round
    simp [codec, round, keeps message clean]
  loaded text old clean := by
    simp only [codec]
    split
    · exact cuts _
    · exact clean
  nothing old := rfl
  object text old loads := by
    apply document_object members text
    simp only [codec] at loads
    split at loads
    · next found => simp [found]
    · cases loads

theorem transactionAt_valid (indent close : Nat) (tx : Transaction) :
    (transactionAt indent close).Valid tx :=
  ⟨trivial, trivial, trivial, trivial, trivial⟩

theorem blockMembers_valid (block : Block) : blockMembers.Valid block :=
  ⟨trivial, trivial, trivial, trivial, fun tx _ => transactionAt_valid 16 12 tx⟩

theorem cerealJson_lawful : cerealJson.Lawful where
  transaction := codec_lawful (transactionAt 8 4) cTransaction Transaction.Clean
    (transactionAt_valid 8 4) cTransaction_clean cTransaction_of_clean
  block := codec_lawful blockMembers cBlock Block.Clean
    blockMembers_valid cBlock_clean cBlock_of_clean

example : cerealJson.transaction.toString
      ⟨ascii "t1", ascii "alice", ascii "bob", -7, 3⟩ =
    ascii "\x7b\n    \"value0\": \x7b\n        \"id\": \"t1\",\n        \"from\": \"alice\",\n        \"to\": \"bob\",\n        \"value\": -7,\n        \"ts\": 3\n    \x7d\n\x7d" := by
  decide +kernel

end FPayNode.CerealJson
