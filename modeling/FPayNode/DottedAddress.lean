import FPayNode.ByteStream
import Mathlib.Data.List.TakeWhile

/-!
Addresses of four bytes as text, as the C library prints and reads them:
`addr_ntoa` and `aton_addr` of `core/xnet/Socket.h` are `inet_ntoa` and
`inet_addr`. The bytes of the word in memory are those of the network.
-/

namespace FPayNode.DottedAddress

open DecimalText ByteStream

def INADDR_NONE : UInt32 := 0xFFFFFFFF

/-! Printing. -/

def octetText (byte : UInt8) : Bytes := natText byte.toNat

/-- The text of a byte, a dot and more. -/
def dotted (byte : UInt8) (rest : Bytes) : Bytes := octetText byte ++ 46 :: rest

def addr_ntoa (ip : UInt32) : Bytes :=
  dotted ip.toUInt8 (dotted (ip >>> 8).toUInt8 (dotted (ip >>> 16).toUInt8
    (octetText (ip >>> 24).toUInt8)))

/-! Reading. -/

def digitValue (byte : UInt8) : Nat :=
  if isDigit byte then byte.toNat - 48
  else if 97 ≤ byte ∧ byte ≤ 102 then byte.toNat - 87
  else if 65 ≤ byte ∧ byte ≤ 70 then byte.toNat - 55
  else 16

def readBase (base : Nat) : Nat → Bytes → Nat × Bytes
  | acc, [] => (acc, [])
  | acc, byte :: rest =>
      if digitValue byte < base then readBase base (acc * base + digitValue byte) rest
      else (acc, byte :: rest)

/-- A number in the base that its prefix says, and the text after it. -/
def strtoul (text : Bytes) : Nat × Bytes :=
  if text.head? = some 48 then
    if (text[1]? = some 120 ∨ text[1]? = some 88) ∧ (text[2]?.any fun byte => digitValue byte < 16)
    then readBase 16 0 (text.drop 2)
    else readBase 8 0 text
  else readDigits 0 text

/-- The parts of an address: each one in front of the last is a byte, and the
last one fills the bytes that are left. -/
def inet_aton : Nat → List UInt8 → Bytes → Option UInt32
  | more, front, text =>
      if !text.head?.any isDigit then none
      else
        let (val, rest) := strtoul text
        if val > 0xFFFFFFFF then none
        else if rest.head? = some 46 then
          match more with
          | 0 => none
          | more + 1 =>
              if val > 0xFF then none else inet_aton more (front ++ [UInt8.ofNat val]) (rest.drop 1)
        else if rest.head?.any fun byte => !isSpace byte then none
        else if val ≥ 2 ^ (32 - 8 * front.length) then none
        else some (loadUint32 (front.getD 0 0) (front.getD 1 0) (front.getD 2 0) 0 |||
          XHTONL (UInt32.ofNat val))

/-- The text ends at its first zero byte. -/
def aton_addr (text : Bytes) : UInt32 :=
  (inet_aton 3 [] (text.takeWhile fun byte => byte ≠ 0)).getD INADDR_NONE

/-! An address is read back from its text. -/

theorem natText_head_nonzero (n : Nat) (positive : n ≠ 0) : (natText n).head? ≠ some 48 := by
  rw [natText, if_neg positive, List.head?_reverse, List.getLast?_map,
    List.getLast?_eq_getLast_of_ne_nil (Nat.digits_ne_nil_iff_ne_zero.mpr positive)]
  intro zero
  have small := Nat.digits_lt_base (b := 10) (by omega)
    (List.getLast_mem (Nat.digits_ne_nil_iff_ne_zero.mpr positive))
  have last := congrArg UInt8.toNat (Option.some.inj zero)
  rw [digit_toNat _ small] at last
  have least : (48 : UInt8).toNat = 48 := rfl
  exact Nat.getLast_digit_ne_zero 10 positive (by omega)

/-- The text of a byte has no prefix, so its base is ten. -/
theorem strtoul_octet (byte : UInt8) (rest : Bytes) (ends : rest = [] ∨ rest.head? = some 46) :
    strtoul (octetText byte ++ rest) = (byte.toNat, rest) := by
  have stops : Ends rest := by
    intro head member
    rcases ends with nothing | dot
    · rw [nothing] at member
      cases member
    · rw [dot] at member
      cases member
      rfl
  have front : (octetText byte ++ rest).head? = (natText byte.toNat).head? := by
    obtain ⟨first, more, text, -⟩ := natText_head byte.toNat
    rw [octetText, text]
    rfl
  by_cases zero : byte.toNat = 0
  · rw [octetText, zero]
    rcases ends with nothing | dot
    · rw [nothing]
      rfl
    · obtain ⟨more, rfl⟩ := List.head?_eq_some_iff.mp dot
      rfl
  · rw [strtoul, if_neg (by rw [front]; exact natText_head_nonzero _ zero)]
    exact readDigits_natText byte.toNat rest stops

theorem octetText_digit (byte : UInt8) (rest : Bytes) :
    (octetText byte ++ rest).head?.any isDigit = true := by
  obtain ⟨first, more, text, digit⟩ := natText_head byte.toNat
  rw [octetText, text]
  exact digit

theorem inet_aton_dotted (more : Nat) (front : List UInt8) (byte : UInt8) (rest : Bytes) :
    inet_aton (more + 1) front (dotted byte rest) = inet_aton more (front ++ [byte]) rest := by
  have small := byte.toNat_lt
  rw [inet_aton, dotted, octetText_digit, strtoul_octet byte (46 :: rest) (.inr rfl)]
  simp only [Bool.not_true, Bool.false_eq_true, if_false, List.head?_cons, if_true,
    List.drop_succ_cons, List.drop_zero, UInt8.ofNat_toNat]
  rw [if_neg (by omega), if_neg (by omega)]

/-- The last byte goes to the top of the word. -/
theorem last_byte (a b c d : UInt8) :
    loadUint32 a b c 0 ||| XHTONL (UInt32.ofNat d.toNat) = loadUint32 a b c d := by
  have small := d.toNat_lt
  have placed : XHTONL (UInt32.ofNat d.toNat) = d.toUInt32 <<< 24 := by
    apply UInt32.toNat_inj.mp
    have word : (UInt32.ofNat d.toNat).toNat = d.toNat :=
      UInt32.toNat_ofNat_of_lt' (by rw [UInt32.size]; omega)
    rw [XHTONL_toNat _ d.toNat 0 0 0 small (by omega) (by omega) (by omega) (by omega)]
    simp only [UInt32.toNat_shiftLeft, UInt8.toNat_toUInt32, Nat.shiftLeft_eq, UInt32.reduceToNat,
      Nat.reduceMod]
    omega
  have nothing : (0 : UInt8).toUInt32 <<< 24 = 0 := rfl
  rw [placed, loadUint32, loadUint32, nothing, UInt32.or_zero]

theorem inet_aton_last (a b c d : UInt8) :
    inet_aton 0 [a, b, c] (octetText d) = some (loadUint32 a b c d) := by
  have small := d.toNat_lt
  have number := strtoul_octet d [] (.inl rfl)
  have digit := octetText_digit d []
  rw [List.append_nil] at number digit
  rw [inet_aton, digit, number]
  simp only [Bool.not_true, Bool.false_eq_true, if_false, List.head?_nil, Option.any_none,
    reduceCtorEq, List.length_cons, List.length_nil]
  rw [if_neg (by omega), if_neg (by omega)]
  exact congrArg some (last_byte a b c d)

/-- The text is made of digits and dots. -/
theorem addr_ntoa_bytes (ip : UInt32) :
    ∀ byte ∈ addr_ntoa ip, isDigit byte = true ∨ byte = 46 := by
  have octet (value : UInt8) : ∀ byte ∈ octetText value, isDigit byte = true ∨ byte = 46 :=
    fun byte member => .inl (natText_digits value.toNat byte member)
  have more (value : UInt8) (rest : Bytes)
      (made : ∀ byte ∈ rest, isDigit byte = true ∨ byte = 46) :
      ∀ byte ∈ dotted value rest, isDigit byte = true ∨ byte = 46 := by
    intro byte member
    rcases List.mem_append.mp member with inText | behind
    · exact octet value byte inText
    · rcases List.mem_cons.mp behind with dot | later
      · exact .inr dot
      · exact made byte later
  exact more _ _ (more _ _ (more _ _ (octet _)))

/-- A byte that is no digit and no dot is not in the text. -/
theorem addr_ntoa_without (ip : UInt32) (other : UInt8) (digit : isDigit other = false)
    (dot : other ≠ 46) : ∀ byte ∈ addr_ntoa ip, byte ≠ other := by
  rintro byte member rfl
  rcases addr_ntoa_bytes ip byte member with is | is
  · rw [digit] at is
    cases is
  · exact dot is

theorem loadUint32_bytes (i32 : UInt32) :
    loadUint32 i32.toUInt8 (i32 >>> 8).toUInt8 (i32 >>> 16).toUInt8 (i32 >>> 24).toUInt8 = i32 := by
  have bound := i32.toNat_lt
  apply UInt32.toNat_inj.mp
  rw [loadUint32_toNat]
  simp only [UInt32.toNat_toUInt8, UInt32.toNat_shiftRight, Nat.shiftRight_eq_div_pow,
    UInt32.reduceToNat, Nat.reduceMod]
  omega

theorem aton_ntoa (ip : UInt32) : aton_addr (addr_ntoa ip) = ip := by
  have whole : (addr_ntoa ip).takeWhile (fun byte => byte ≠ 0) = addr_ntoa ip :=
    List.takeWhile_eq_self_iff.mpr fun byte member =>
      decide_eq_true (addr_ntoa_without ip 0 rfl (by decide) byte member)
  rw [aton_addr, whole, addr_ntoa, inet_aton_dotted, inet_aton_dotted, inet_aton_dotted]
  change (inet_aton 0 [_, _, _] _).getD _ = _
  rw [inet_aton_last, Option.getD_some, loadUint32_bytes]

end FPayNode.DottedAddress
