import FPayNode.DecimalText

/-!
Texts that can be read back. A layout writes an item and reads one from the
front of a text; it carries the proof that reading undoes writing, whatever
follows, as long as a number does not run into the next one. Layouts are put
together from literals, quoted strings, numbers, pairs and arrays, and the
round trip of the whole comes with the construction.
-/

namespace FPayNode.TextLayout

open DecimalText

structure Layout (Item : Type) where
  write : Item → Bytes
  read : Bytes → Option (Item × Bytes)
  Valid : Item → Prop
  round : ∀ item rest, Valid item → Ends rest → read (write item ++ rest) = some (item, rest)

variable {Item Other : Type}

/-- The text after a literal, if the text starts with it. -/
def strip : Bytes → Bytes → Option Bytes
  | [], text => some text
  | _ :: _, [] => none
  | byte :: literal, first :: text => if byte = first then strip literal text else none

theorem strip_append (literal rest : Bytes) : strip literal (literal ++ rest) = some rest := by
  induction literal with
  | nil => rfl
  | cons byte literal ih => simpa [strip] using ih

/-- A literal that no digits can run into. -/
structure Literal where
  text : Bytes
  apart : ∃ byte rest, text = byte :: rest ∧ isDigit byte = false

theorem Literal.ends (literal : Literal) (rest : Bytes) : Ends (literal.text ++ rest) := by
  obtain ⟨byte, tail, text, apart⟩ := literal.apart
  intro first member
  rw [text] at member
  simp only [List.cons_append, List.head?_cons, Option.mem_some_iff] at member
  exact member ▸ apart

/-! Quoted strings, with the escapes of JSON writers. -/

def hexDigit (value : UInt8) : UInt8 := if value < 10 then 48 + value else 55 + value

def hexValue (byte : UInt8) : UInt8 := if byte < 58 then byte - 48 else byte - 55

/-- The letter after the backslash, for bytes that are not written plainly. -/
def escapeLetter (byte : UInt8) : Option UInt8 :=
  if byte = 34 then some 34
  else if byte = 92 then some 92
  else if byte = 8 then some 98
  else if byte = 9 then some 116
  else if byte = 10 then some 110
  else if byte = 12 then some 102
  else if byte = 13 then some 114
  else if byte < 32 then some 117
  else none

def escape (byte : UInt8) : Bytes :=
  match escapeLetter byte with
  | none => [byte]
  | some letter =>
      if letter = 117 then [92, 117, 48, 48, hexDigit (byte / 16), hexDigit (byte % 16)]
      else [92, letter]

def unescapeLetter (letter : UInt8) : UInt8 :=
  if letter = 98 then 8
  else if letter = 116 then 9
  else if letter = 110 then 10
  else if letter = 102 then 12
  else if letter = 114 then 13
  else letter

inductive Reader where
  | plain
  | escaped
  | hex (left : Nat) (value : UInt8)

/-- Reads up to the closing quote, one byte at a time. -/
def unquote : Reader → Bytes → Option (Bytes × Bytes)
  | _, [] => none
  | .plain, byte :: text =>
      if byte = 34 then some ([], text)
      else if byte = 92 then unquote .escaped text
      else (unquote .plain text).map fun found => (byte :: found.1, found.2)
  | .escaped, letter :: text =>
      if letter = 117 then unquote (.hex 3 0) text
      else (unquote .plain text).map fun found => (unescapeLetter letter :: found.1, found.2)
  | .hex 0 value, byte :: text =>
      (unquote .plain text).map fun found => ((value * 16 + hexValue byte) :: found.1, found.2)
  | .hex (left + 1) value, byte :: text => unquote (.hex left (value * 16 + hexValue byte)) text

theorem hex_round (byte : UInt8) :
    (((0 * 16 + hexValue 48) * 16 + hexValue 48) * 16 + hexValue (hexDigit (byte / 16))) * 16 +
      hexValue (hexDigit (byte % 16)) = byte := by
  have all : ∀ n : Fin 256,
      (((0 * 16 + hexValue 48) * 16 + hexValue 48) * 16 +
        hexValue (hexDigit (UInt8.ofNat n / 16))) * 16 +
        hexValue (hexDigit (UInt8.ofNat n % 16)) = UInt8.ofNat n := by
    decide +kernel
  have found := all ⟨byte.toNat, byte.toNat_lt⟩
  simpa only [UInt8.ofNat_toNat] using found

theorem letter_round (byte letter : UInt8) (found : escapeLetter byte = some letter)
    (short : letter ≠ 117) : unescapeLetter letter = byte := by
  simp only [escapeLetter] at found
  split_ifs at found <;> cases found
  all_goals first | exact absurd rfl short | (subst byte; rfl)

theorem unquote_escape (byte : UInt8) (text : Bytes) :
    unquote .plain (escape byte ++ text) =
      (unquote .plain text).map fun found => (byte :: found.1, found.2) := by
  simp only [escape]
  cases found : escapeLetter byte with
  | none =>
      have notQuote : byte ≠ 34 := by rintro rfl; simp [escapeLetter] at found
      have notSlash : byte ≠ 92 := by rintro rfl; simp [escapeLetter] at found
      simp [unquote, notQuote, notSlash]
  | some letter =>
      by_cases long : letter = 117
      · have notQuote : ¬ (92 : UInt8) = 34 := by decide
        simp only [long, ↓reduceIte, List.cons_append, List.nil_append, unquote,
          hex_round byte, notQuote]
      · simp [unquote, long, letter_round byte letter found long]

def quoted : Layout Bytes where
  write text := 34 :: (text.flatMap escape ++ [34])
  read text :=
    match text with
    | [] => none
    | byte :: rest => if byte = 34 then unquote .plain rest else none
  Valid _ := True
  round item rest _ _ := by
    simp only [List.cons_append, ↓reduceIte, List.append_assoc]
    induction item with
    | nil => simp [unquote]
    | cons byte item ih =>
        rw [List.flatMap_cons, List.append_assoc, unquote_escape, ih]
        rfl

/-! Numbers. -/

def readInt : Bytes → Option (Int × Bytes)
  | [] => none
  | byte :: text =>
      if byte = 45 then some (-(readDigits 0 text).1, (readDigits 0 text).2)
      else if isDigit byte then
        some ((readDigits 0 (byte :: text)).1, (readDigits 0 (byte :: text)).2)
      else none

theorem readInt_decimal (n : Int) (rest : Bytes) (ends : Ends rest) :
    readInt (decimal n ++ rest) = some (n, rest) := by
  have digits := readDigits_natText n.natAbs rest ends
  simp only [decimal]
  split
  · next negative =>
      simp only [List.cons_append, readInt, ↓reduceIte, digits, Option.some.injEq, Prod.mk.injEq,
        and_true]
      omega
  · next positive =>
      obtain ⟨byte, tail, head, is⟩ := natText_head n.natAbs
      have notSign := (digit_not_sign byte is).1
      rw [head, List.cons_append] at digits ⊢
      simp only [readInt, notSign, ↓reduceIte, is, digits, Option.some.injEq, Prod.mk.injEq,
        and_true]
      omega

def number : Layout Int where
  write := decimal
  read := readInt
  Valid _ := True
  round n rest _ ends := readInt_decimal n rest ends

/-! Putting layouts together. -/

def Layout.convert (layout : Layout Item) (into : Item → Other) (back : Other → Item)
    (inverse : ∀ other, layout.Valid (back other) → into (back other) = other) : Layout Other where
  write other := layout.write (back other)
  read text := (layout.read text).map fun found => (into found.1, found.2)
  Valid other := layout.Valid (back other)
  round other rest valid ends := by
    rw [layout.round _ rest valid ends]
    simp [inverse other valid]

def Layout.after (literal : Literal) (layout : Layout Item) : Layout Item where
  write item := literal.text ++ layout.write item
  read text := (strip literal.text text).bind layout.read
  Valid := layout.Valid
  round item rest valid ends := by
    rw [List.append_assoc, strip_append]
    exact layout.round item rest valid ends

def Layout.before (layout : Layout Item) (literal : Literal) : Layout Item where
  write item := layout.write item ++ literal.text
  read text := (layout.read text).bind fun found =>
    (strip literal.text found.2).map fun rest => (found.1, rest)
  Valid := layout.Valid
  round item rest valid _ := by
    rw [List.append_assoc, layout.round item _ valid (literal.ends rest)]
    simp [strip_append]

/-- Two items with a literal between them. -/
def Layout.followedBy (first : Layout Item) (literal : Literal) (second : Layout Other) :
    Layout (Item × Other) where
  write items := first.write items.1 ++ (literal.text ++ second.write items.2)
  read text := (first.read text).bind fun found =>
    (strip literal.text found.2).bind fun rest =>
      (second.read rest).map fun last => ((found.1, last.1), last.2)
  Valid items := first.Valid items.1 ∧ second.Valid items.2
  round items rest valid ends := by
    rw [List.append_assoc, List.append_assoc,
      first.round items.1 _ valid.1 (literal.ends _)]
    simp [strip_append, second.round items.2 rest valid.2 ends]

/-- The items after the first one, up to the closing literal. -/
def readMore (comma close : Literal) (layout : Layout Item) :
    Nat → Bytes → Option (List Item × Bytes)
  | 0, _ => none
  | fuel + 1, text =>
      match strip comma.text text with
      | none => (strip close.text text).map fun rest => ([], rest)
      | some rest => (layout.read rest).bind fun found =>
          (readMore comma close layout fuel found.2).map fun more =>
            (found.1 :: more.1, more.2)

def writeMore (comma close : Literal) (layout : Layout Item) (items : List Item) : Bytes :=
  items.flatMap (fun item => comma.text ++ layout.write item) ++ close.text

/-- An array: nothing between the brackets, or items separated by commas. -/
structure Brackets where
  empty : Literal
  opening : Literal
  comma : Literal
  close : Literal
  emptyApart : ∀ rest, strip empty.text (opening.text ++ rest) = none
  commaApart : ∀ rest, strip comma.text (close.text ++ rest) = none

theorem writeMore_ends (brackets : Brackets) (layout : Layout Item) (items : List Item)
    (rest : Bytes) : Ends (writeMore brackets.comma brackets.close layout items ++ rest) := by
  cases items with
  | nil => exact brackets.close.ends rest
  | cons item items =>
      simp only [writeMore, List.flatMap_cons, List.append_assoc]
      exact brackets.comma.ends _

theorem readMore_writeMore (brackets : Brackets) (layout : Layout Item) (items : List Item)
    (rest : Bytes) (valid : ∀ item ∈ items, layout.Valid item) (fuel : Nat)
    (enough : items.length < fuel) :
    readMore brackets.comma brackets.close layout fuel
      (writeMore brackets.comma brackets.close layout items ++ rest) = some (items, rest) := by
  induction items generalizing fuel with
  | nil =>
      obtain ⟨less, rfl⟩ := Nat.exists_eq_add_one_of_ne_zero (by omega : fuel ≠ 0)
      simp [readMore, writeMore, brackets.commaApart, strip_append]
  | cons item items ih =>
      obtain ⟨less, rfl⟩ := Nat.exists_eq_add_one_of_ne_zero (by omega : fuel ≠ 0)
      have tail := ih (fun other member => valid other (by simp [member])) less
        (by simpa using enough)
      have head := layout.round item
        (writeMore brackets.comma brackets.close layout items ++ rest) (valid item (by simp))
        (writeMore_ends brackets layout items rest)
      simp only [writeMore, List.append_assoc] at head tail
      simp [readMore, writeMore, strip_append, head, tail]

theorem writeMore_length (brackets : Brackets) (layout : Layout Item) (items : List Item) :
    items.length < (writeMore brackets.comma brackets.close layout items).length := by
  induction items with
  | nil =>
      obtain ⟨byte, rest, text, _⟩ := brackets.close.apart
      simp [writeMore, text]
  | cons item items ih =>
      obtain ⟨byte, rest, text, _⟩ := brackets.comma.apart
      simp only [writeMore, List.flatMap_cons, List.length_append, text, List.length_cons] at ih ⊢
      omega

def Layout.array (brackets : Brackets) (layout : Layout Item) : Layout (List Item) where
  write
    | [] => brackets.empty.text
    | item :: items => brackets.opening.text ++
        (layout.write item ++ writeMore brackets.comma brackets.close layout items)
  read text :=
    match strip brackets.empty.text text with
    | some rest => some ([], rest)
    | none => (strip brackets.opening.text text).bind fun rest =>
        (layout.read rest).bind fun found =>
          (readMore brackets.comma brackets.close layout found.2.length found.2).map fun more =>
            (found.1 :: more.1, more.2)
  Valid items := ∀ item ∈ items, layout.Valid item
  round items rest valid _ := by
    cases items with
    | nil => simp [strip_append]
    | cons item items =>
        have head := layout.round item
          (writeMore brackets.comma brackets.close layout items ++ rest) (valid item (by simp))
          (writeMore_ends brackets layout items rest)
        have enough : items.length <
            (writeMore brackets.comma brackets.close layout items ++ rest).length := by
          have length := writeMore_length brackets layout items
          rw [List.length_append]
          omega
        have tail := readMore_writeMore brackets layout items rest
          (fun other member => valid other (by simp [member])) _ enough
        rw [List.length_append] at tail
        simp [brackets.emptyApart, strip_append, head, tail]

end FPayNode.TextLayout
