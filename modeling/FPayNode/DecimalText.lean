import Mathlib.Data.Nat.Digits.Lemmas
import Mathlib.Tactic.Common

/-!
Byte strings, and signed 64-bit numbers written in decimal. `decimal` is what
an integer prints as; `atoll` reads the longest number at the front of a text
and saturates, as the C library does; `parseExact` accepts only texts that
are the decimal form of a number.
-/

namespace FPayNode.DecimalText

abbrev Bytes := List UInt8

def ascii (text : String) : Bytes :=
  text.toList.map fun character => UInt8.ofNat character.toNat

/-! Ranges. -/

def Fits (n : Int) : Prop := -2 ^ 63 ≤ n ∧ n < 2 ^ 63

instance (n : Int) : Decidable (Fits n) := inferInstanceAs (Decidable (_ ∧ _))

theorem fits_toInt (n : Int64) : Fits n.toInt :=
  ⟨Int64.le_toInt n, Int64.toInt_lt n⟩

theorem toInt_ofInt (n : Int) (fits : Fits n) : (Int64.ofInt n).toInt = n :=
  Int64.toInt_ofInt_of_le fits.1 fits.2

theorem ofInt_inj (left right : Int) (fitsLeft : Fits left) (fitsRight : Fits right)
    (same : Int64.ofInt left = Int64.ofInt right) : left = right := by
  rw [← toInt_ofInt left fitsLeft, ← toInt_ofInt right fitsRight, same]

/-- Negation is exact except at the least value, which it leaves alone. -/
theorem toInt_neg (n : Int64) (least : n ≠ Int64.minValue) : (-n).toInt = -n.toInt := by
  have lower := (fits_toInt n).1
  have upper := (fits_toInt n).2
  have strict : n.toInt ≠ -2 ^ 63 := fun equal =>
    least (Int64.toInt_inj.mp (equal.trans (by decide)))
  rw [Int64.toInt_neg]
  exact Int.bmod_eq_of_le (by omega) (by omega)

def clamp (n : Int) : Int := max (-2 ^ 63) (min n (2 ^ 63 - 1))

theorem clamp_fits (n : Int) : Fits (clamp n) := by
  simp only [Fits, clamp]
  omega

theorem clamp_of_fits (n : Int) (fits : Fits n) : clamp n = n := by
  simp only [Fits] at fits
  simp only [clamp]
  omega

/-! Printing. -/

def digit (value : Nat) : UInt8 := UInt8.ofNat (48 + value)

def natText (n : Nat) : Bytes :=
  if n = 0 then [digit 0] else ((Nat.digits 10 n).map digit).reverse

def decimal (n : Int) : Bytes :=
  if n < 0 then 45 :: natText n.natAbs else natText n.natAbs

/-! Reading. -/

def isDigit (byte : UInt8) : Bool := 48 ≤ byte && byte ≤ 57

def isSpace (byte : UInt8) : Bool := byte = 32 || (9 ≤ byte && byte ≤ 13)

/-- The number at the front of a text, and the text after it. -/
def readDigits : Nat → Bytes → Nat × Bytes
  | acc, [] => (acc, [])
  | acc, byte :: rest =>
      if isDigit byte then readDigits (acc * 10 + (byte.toNat - 48)) rest
      else (acc, byte :: rest)

def atoll (text : Bytes) : Int :=
  match text.dropWhile isSpace with
  | [] => 0
  | sign :: rest =>
      if sign = 45 then clamp (-(readDigits 0 rest).1)
      else if sign = 43 then clamp (readDigits 0 rest).1
      else clamp (readDigits 0 (sign :: rest)).1

def parseExact (text : Bytes) : Option Int :=
  if decimal (atoll text) = text then some (atoll text) else none

theorem atoll_fits (text : Bytes) : Fits (atoll text) := by
  simp only [atoll]
  split
  · decide
  · split
    · exact clamp_fits _
    · split <;> exact clamp_fits _

theorem digit_toNat (value : Nat) (small : value < 10) : (digit value).toNat = 48 + value := by
  simp only [digit]
  rw [UInt8.toNat_ofNat']
  omega

theorem isDigit_iff (byte : UInt8) :
    isDigit byte = true ↔ 48 ≤ byte.toNat ∧ byte.toNat ≤ 57 := by
  simp [isDigit, UInt8.le_iff_toNat_le]

theorem digit_isDigit (value : Nat) (small : value < 10) : isDigit (digit value) = true := by
  rw [isDigit_iff, digit_toNat value small]
  omega

theorem isDigit_not_isSpace (byte : UInt8) (is : isDigit byte = true) : isSpace byte = false := by
  rw [isDigit_iff] at is
  have notBlank : byte ≠ 32 := by
    rintro rfl
    simp at is
  simp [isSpace, notBlank, UInt8.le_iff_toNat_le]
  omega

theorem readDigits_digits (values : List Nat) (small : ∀ value ∈ values, value < 10)
    (acc : Nat) (rest : Bytes) :
    readDigits acc (values.map digit ++ rest) =
      readDigits (values.foldl (fun total value => total * 10 + value) acc) rest := by
  induction values generalizing acc with
  | nil => rfl
  | cons value values ih =>
      have head := small value (by simp)
      simp only [List.map_cons, List.cons_append, readDigits, digit_isDigit value head,
        ↓reduceIte, digit_toNat value head, List.foldl_cons]
      rw [ih fun other member => small other (by simp [member])]
      congr 2
      omega

theorem foldl_reverse_digits (values : List Nat) (acc : Nat) :
    values.reverse.foldl (fun total value => total * 10 + value) acc =
      acc * 10 ^ values.length + Nat.ofDigits 10 values := by
  induction values with
  | nil => simp
  | cons value values ih =>
      rw [List.reverse_cons, List.foldl_append, ih, Nat.ofDigits_cons, List.length_cons,
        Nat.pow_succ]
      simp only [List.foldl_cons, List.foldl_nil]
      ring

/-- A text the number's digits cannot run into. -/
def Ends (rest : Bytes) : Prop := ∀ byte ∈ rest.head?, isDigit byte = false

theorem readDigits_ends (acc : Nat) (rest : Bytes) (ends : Ends rest) :
    readDigits acc rest = (acc, rest) := by
  cases rest with
  | nil => rfl
  | cons byte rest =>
      have stop : isDigit byte = false := ends byte (by simp)
      simp [readDigits, stop]

theorem readDigits_natText (n : Nat) (rest : Bytes) (ends : Ends rest) :
    readDigits 0 (natText n ++ rest) = (n, rest) := by
  simp only [natText]
  split
  · next zero =>
      subst zero
      simpa [readDigits_ends _ rest ends] using readDigits_digits [0] (by simp) 0 rest
  · have small : ∀ value ∈ (Nat.digits 10 n).reverse, value < 10 := by
      intro value member
      exact Nat.digits_lt_base (by omega) (List.mem_reverse.mp member)
    have read := readDigits_digits _ small 0 rest
    rw [foldl_reverse_digits, Nat.ofDigits_digits, readDigits_ends _ rest ends] at read
    simpa [List.map_reverse] using read

theorem natText_digits (n : Nat) : ∀ byte ∈ natText n, isDigit byte = true := by
  intro byte member
  simp only [natText] at member
  split at member
  · rw [List.mem_singleton.mp member]
    exact digit_isDigit 0 (by omega)
  · obtain ⟨value, inside, rfl⟩ := List.mem_map.mp (List.mem_reverse.mp member)
    exact digit_isDigit value (Nat.digits_lt_base (by omega) inside)

theorem natText_head (n : Nat) : ∃ byte rest, natText n = byte :: rest ∧ isDigit byte = true := by
  have digits := natText_digits n
  cases text : natText n with
  | nil =>
      exfalso
      simp only [natText] at text
      split at text
      · simp at text
      · next positive => simp [Nat.digits_ne_nil_iff_ne_zero.mpr positive] at text
  | cons byte rest => exact ⟨byte, rest, rfl, digits byte (by simp [text])⟩

theorem digit_not_sign (byte : UInt8) (is : isDigit byte = true) : byte ≠ 45 ∧ byte ≠ 43 := by
  rw [isDigit_iff] at is
  constructor <;> rintro rfl <;> simp at is

theorem atoll_decimal (n : Int) (fits : Fits n) : atoll (decimal n) = n := by
  have nothing : Ends [] := by simp [Ends]
  have whole := readDigits_natText n.natAbs [] nothing
  rw [List.append_nil] at whole
  obtain ⟨byte, rest, head, is⟩ := natText_head n.natAbs
  by_cases negative : n < 0
  · simp only [decimal, negative, ↓reduceIte, atoll]
    have stays : List.dropWhile isSpace (45 :: natText n.natAbs) = 45 :: natText n.natAbs := by
      simp [List.dropWhile, isSpace]
    rw [stays]
    simp only [↓reduceIte, whole]
    have value : -(n.natAbs : Int) = n := by omega
    rw [value]
    exact clamp_of_fits n fits
  · simp only [decimal, negative, ↓reduceIte, atoll]
    have stays : List.dropWhile isSpace (natText n.natAbs) = byte :: rest := by
      rw [head]
      simp [List.dropWhile, isDigit_not_isSpace byte is]
    rw [head] at whole
    rw [stays]
    simp only [digit_not_sign byte is, ↓reduceIte, whole]
    have value : (n.natAbs : Int) = n := by omega
    rw [value]
    exact clamp_of_fits n fits

theorem parseExact_decimal (n : Int) (fits : Fits n) : parseExact (decimal n) = some n := by
  simp [parseExact, atoll_decimal n fits]

theorem parseExact_some (text : Bytes) (n : Int) (found : parseExact text = some n) :
    atoll text = n ∧ decimal n = text := by
  simp only [parseExact] at found
  split at found
  · next same =>
      have value := Option.some.inj found
      subst value
      exact ⟨rfl, same⟩
  · cases found

end FPayNode.DecimalText
