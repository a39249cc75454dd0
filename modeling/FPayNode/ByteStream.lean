import FPayNode.DecimalText
import Mathlib.Data.Nat.Bitwise

/-!
`core/base/ByteStream.h`: words in network byte order, and the stream that
requests are read from. A word is loaded from and stored to memory as the
machine does it, lowest byte first, and its bytes are swapped in between.
-/

namespace FPayNode.ByteStream

open DecimalText

def XHTONS (i16 : UInt16) : UInt16 := (i16 <<< 8) ||| (i16 >>> 8)

def XHTONL (i32 : UInt32) : UInt32 :=
  ((XHTONS i32.toUInt16).toUInt32 <<< 16) ||| (XHTONS (i32 >>> 16).toUInt16).toUInt32

def XHTONLL (i64 : UInt64) : UInt64 :=
  ((XHTONL i64.toUInt32).toUInt64 <<< 32) ||| (XHTONL (i64 >>> 32).toUInt32).toUInt64

/-- What `*((uint16_t*)d)` reads. -/
def loadUint16 (b0 b1 : UInt8) : UInt16 := b0.toUInt16 ||| (b1.toUInt16 <<< 8)

def storeUint16 (i16 : UInt16) : Bytes := [i16.toUInt8, (i16 >>> 8).toUInt8]

/-- What `*((uint32_t*)d)` reads. -/
def loadUint32 (b0 b1 b2 b3 : UInt8) : UInt32 :=
  b0.toUInt32 ||| (b1.toUInt32 <<< 8) ||| (b2.toUInt32 <<< 16) ||| (b3.toUInt32 <<< 24)

def storeUint32 (i32 : UInt32) : Bytes :=
  [i32.toUInt8, (i32 >>> 8).toUInt8, (i32 >>> 16).toUInt8, (i32 >>> 24).toUInt8]

/-- Eight bytes are two words, the lower one first. -/
def loadUint64 (low high : UInt32) : UInt64 := low.toUInt64 ||| (high.toUInt64 <<< 32)

def storeUint64 (i64 : UInt64) : Bytes :=
  storeUint32 i64.toUInt32 ++ storeUint32 (i64 >>> 32).toUInt32

/-! Exceptions, by the handlers that tell them apart. -/

def EAGAIN : Int32 := 11

def EINTR : Int32 := 4

def EINPROGRESS : Int32 := 115

def isIgnoreError (en : Int32) : Bool := en = EAGAIN || en = EINTR || en = EINPROGRESS

/-- The socket exceptions that leave a request are those of `Socket::send`,
which returns zero for the errors that `isIgnoreError` names. -/
inductive Exn where
  | socketExn (errno : Int32) (raised : isIgnoreError errno = false)
  | readStreamExn
  | cerealException
  | otherException
  deriving DecidableEq

/-- A computation that succeeds is made of ones that do. -/
theorem bind_ok {First Second : Type} (first : Except Exn First)
    (next : First → Except Exn Second) (result : Second) (done : (first >>= next) = .ok result) :
    ∃ value, first = .ok value ∧ next value = .ok result := by
  cases first with
  | error exn => cases done
  | ok value => exact ⟨value, rfl, done⟩

/-! Reading. The stream is the bytes that are left. -/

def readUint8 : Bytes → Except Exn (UInt8 × Bytes)
  | [] => .error .readStreamExn
  | b0 :: rest => .ok (b0, rest)

def readUint16 : Bytes → Except Exn (UInt16 × Bytes)
  | b0 :: b1 :: rest => .ok (XHTONS (loadUint16 b0 b1), rest)
  | _ => .error .readStreamExn

def readUint32 : Bytes → Except Exn (UInt32 × Bytes)
  | b0 :: b1 :: b2 :: b3 :: rest => .ok (XHTONL (loadUint32 b0 b1 b2 b3), rest)
  | _ => .error .readStreamExn

def readUint64 : Bytes → Except Exn (UInt64 × Bytes)
  | b0 :: b1 :: b2 :: b3 :: b4 :: b5 :: b6 :: b7 :: rest =>
      .ok (XHTONLL (loadUint64 (loadUint32 b0 b1 b2 b3) (loadUint32 b4 b5 b6 b7)), rest)
  | _ => .error .readStreamExn

/-! The two steps together are the big-endian word. -/

theorem or_low (high low bits : Nat) (small : low < 2 ^ bits) :
    high * 2 ^ bits ||| low = high * 2 ^ bits + low := by
  rw [Nat.mul_comm, Nat.two_pow_add_eq_or_of_lt small]

theorem XHTONS_toNat (i16 : UInt16) (a b : Nat) (smallA : a < 256) (smallB : b < 256)
    (word : i16.toNat = a + 256 * b) : (XHTONS i16).toNat = b + 256 * a := by
  have shifted : (a + 256 * b) * 2 ^ 8 % 2 ^ 16 = a * 2 ^ 8 := by omega
  have low : (a + 256 * b) / 2 ^ 8 = b := by omega
  simp only [XHTONS, UInt16.toNat_or, UInt16.toNat_shiftLeft, UInt16.toNat_shiftRight,
    Nat.shiftLeft_eq, Nat.shiftRight_eq_div_pow, UInt16.reduceToNat, Nat.reduceMod, word]
  rw [shifted, low, or_low _ _ _ smallB]
  omega

/-- The bytes of a word change places. -/
theorem XHTONL_toNat (i32 : UInt32) (a b c d : Nat) (smallA : a < 256) (smallB : b < 256)
    (smallC : c < 256) (smallD : d < 256)
    (word : i32.toNat = a + 256 * b + 65536 * c + 16777216 * d) :
    (XHTONL i32).toNat = d + 256 * c + 65536 * b + 16777216 * a := by
  have low : (XHTONS i32.toUInt16).toNat = b + 256 * a := by
    apply XHTONS_toNat _ _ _ smallA smallB
    rw [UInt32.toNat_toUInt16, word]
    omega
  have high : (XHTONS (i32 >>> 16).toUInt16).toNat = d + 256 * c := by
    apply XHTONS_toNat _ _ _ smallC smallD
    simp only [UInt32.toNat_toUInt16, UInt32.toNat_shiftRight, Nat.shiftRight_eq_div_pow,
      UInt32.reduceToNat, Nat.reduceMod, word]
    omega
  have shifted : (b + 256 * a) * 2 ^ 16 % 2 ^ 32 = (b + 256 * a) * 2 ^ 16 := by omega
  simp only [XHTONL, UInt32.toNat_or, UInt32.toNat_shiftLeft, UInt16.toNat_toUInt32, low, high,
    Nat.shiftLeft_eq, UInt32.reduceToNat, Nat.reduceMod]
  rw [shifted, or_low _ _ _ (by omega)]
  omega

theorem loadUint32_toNat (b0 b1 b2 b3 : UInt8) :
    (loadUint32 b0 b1 b2 b3).toNat =
      b0.toNat + 256 * b1.toNat + 65536 * b2.toNat + 16777216 * b3.toNat := by
  have bound0 := b0.toNat_lt
  have bound1 := b1.toNat_lt
  have bound2 := b2.toNat_lt
  have bound3 := b3.toNat_lt
  simp only [loadUint32, UInt32.toNat_or, UInt32.toNat_shiftLeft, UInt8.toNat_toUInt32,
    Nat.shiftLeft_eq, UInt32.reduceToNat, Nat.reduceMod]
  have first : b1.toNat * 2 ^ 8 % 2 ^ 32 = b1.toNat * 2 ^ 8 := Nat.mod_eq_of_lt (by omega)
  have second : b2.toNat * 2 ^ 16 % 2 ^ 32 = b2.toNat * 2 ^ 16 := Nat.mod_eq_of_lt (by omega)
  have third : b3.toNat * 2 ^ 24 % 2 ^ 32 = b3.toNat * 2 ^ 24 := Nat.mod_eq_of_lt (by omega)
  have join0 := or_low b1.toNat b0.toNat 8 (by omega)
  have join1 := or_low b2.toNat (b1.toNat * 2 ^ 8 + b0.toNat) 16 (by omega)
  have join2 := or_low b3.toNat (b2.toNat * 2 ^ 16 + (b1.toNat * 2 ^ 8 + b0.toNat)) 24
    (by omega)
  rw [first, second, third, Nat.lor_comm b0.toNat, join0, Nat.lor_comm _ (b2.toNat * 2 ^ 16),
    join1, Nat.lor_comm _ (b3.toNat * 2 ^ 24), join2]
  omega

theorem word_bytes (a b c d : Nat) (smallA : a < 256) (smallB : b < 256) (smallC : c < 256)
    (smallD : d < 256) :
    (a + 256 * b + 65536 * c + 16777216 * d) % 256 = a ∧
      (a + 256 * b + 65536 * c + 16777216 * d) / 256 % 256 = b ∧
      (a + 256 * b + 65536 * c + 16777216 * d) / 65536 % 256 = c ∧
      (a + 256 * b + 65536 * c + 16777216 * d) / 16777216 % 256 = d := by
  have one : (a + 256 * b + 65536 * c + 16777216 * d) / 256 = b + 256 * (c + 256 * d) := by omega
  have two : (a + 256 * b + 65536 * c + 16777216 * d) / 65536 = c + 256 * d := by omega
  have three : (a + 256 * b + 65536 * c + 16777216 * d) / 16777216 = d := by omega
  rw [one, two, three]
  omega

/-- The word that four bytes are in network order. -/
def bigEndian (b0 b1 b2 b3 : UInt8) : Nat :=
  b3.toNat + 256 * b2.toNat + 65536 * b1.toNat + 16777216 * b0.toNat

theorem read_word (b0 b1 b2 b3 : UInt8) :
    (XHTONL (loadUint32 b0 b1 b2 b3)).toNat = bigEndian b0 b1 b2 b3 :=
  XHTONL_toNat _ _ _ _ _ b0.toNat_lt b1.toNat_lt b2.toNat_lt b3.toNat_lt
    (loadUint32_toNat b0 b1 b2 b3)

/-- A word is read back from the bytes it was written as. -/
theorem read_written (i32 : UInt32) :
    ∃ b0 b1 b2 b3, storeUint32 (XHTONL i32) = [b0, b1, b2, b3] ∧
      XHTONL (loadUint32 b0 b1 b2 b3) = i32 := by
  refine ⟨_, _, _, _, rfl, ?_⟩
  have bound := i32.toNat_lt
  -- The four bytes of the word, lowest first.
  obtain ⟨a, b, c, d, smallA, smallB, smallC, smallD, word⟩ : ∃ a b c d : Nat,
      a < 256 ∧ b < 256 ∧ c < 256 ∧ d < 256 ∧
        i32.toNat = a + 256 * b + 65536 * c + 16777216 * d :=
    ⟨i32.toNat % 256, i32.toNat / 256 % 256, i32.toNat / 65536 % 256, i32.toNat / 16777216,
      by omega, by omega, by omega, by omega, by omega⟩
  have swapped := XHTONL_toNat i32 a b c d smallA smallB smallC smallD word
  apply UInt32.toNat_inj.mp
  rw [XHTONL_toNat _ d c b a smallD smallC smallB smallA, word]
  rw [loadUint32_toNat]
  simp only [UInt32.toNat_toUInt8, UInt32.toNat_shiftRight, swapped, Nat.shiftRight_eq_div_pow,
    UInt32.reduceToNat, Nat.reduceMod, Nat.reducePow]
  obtain ⟨byte0, byte1, byte2, byte3⟩ := word_bytes d c b a smallD smallC smallB smallA
  rw [byte0, byte1, byte2, byte3]

theorem readUint32_written (i32 : UInt32) (rest : Bytes) :
    readUint32 (storeUint32 (XHTONL i32) ++ rest) = .ok (i32, rest) := by
  obtain ⟨b0, b1, b2, b3, bytes, word⟩ := read_written i32
  rw [bytes, ← word]
  rfl

/-! The other widths. -/

theorem loadUint16_toNat (b0 b1 : UInt8) :
    (loadUint16 b0 b1).toNat = b0.toNat + 256 * b1.toNat := by
  have bound0 := b0.toNat_lt
  have bound1 := b1.toNat_lt
  simp only [loadUint16, UInt16.toNat_or, UInt16.toNat_shiftLeft, UInt8.toNat_toUInt16,
    Nat.shiftLeft_eq, UInt16.reduceToNat, Nat.reduceMod]
  have high : b1.toNat * 2 ^ 8 % 2 ^ 16 = b1.toNat * 2 ^ 8 := Nat.mod_eq_of_lt (by omega)
  rw [high, Nat.lor_comm, or_low b1.toNat b0.toNat 8 (by omega)]
  omega

theorem read_written16 (i16 : UInt16) :
    ∃ b0 b1, storeUint16 (XHTONS i16) = [b0, b1] ∧ XHTONS (loadUint16 b0 b1) = i16 := by
  refine ⟨_, _, rfl, ?_⟩
  have bound := i16.toNat_lt
  obtain ⟨a, b, smallA, smallB, word⟩ : ∃ a b : Nat, a < 256 ∧ b < 256 ∧
      i16.toNat = a + 256 * b :=
    ⟨i16.toNat % 256, i16.toNat / 256, by omega, by omega, by omega⟩
  have swapped := XHTONS_toNat i16 a b smallA smallB word
  apply UInt16.toNat_inj.mp
  rw [XHTONS_toNat _ b a smallB smallA, word]
  rw [loadUint16_toNat]
  simp only [UInt16.toNat_toUInt8, UInt16.toNat_shiftRight, swapped, Nat.shiftRight_eq_div_pow,
    UInt16.reduceToNat, Nat.reduceMod, Nat.reducePow]
  omega

theorem readUint16_written (i16 : UInt16) (rest : Bytes) :
    readUint16 (storeUint16 (XHTONS i16) ++ rest) = .ok (i16, rest) := by
  obtain ⟨b0, b1, bytes, word⟩ := read_written16 i16
  rw [bytes, ← word]
  rfl

theorem loadUint64_toNat (low high : UInt32) :
    (loadUint64 low high).toNat = high.toNat * 2 ^ 32 + low.toNat := by
  have bound := low.toNat_lt
  have bound' := high.toNat_lt
  have shifted : high.toNat * 2 ^ 32 % 2 ^ 64 = high.toNat * 2 ^ 32 := Nat.mod_eq_of_lt (by omega)
  simp only [loadUint64, UInt64.toNat_or, UInt64.toNat_shiftLeft, UInt32.toNat_toUInt64,
    Nat.shiftLeft_eq, UInt64.reduceToNat, Nat.reduceMod]
  rw [shifted, Nat.lor_comm, or_low _ _ _ (by omega)]

theorem loadUint64_low (low high : UInt32) : (loadUint64 low high).toUInt32 = low := by
  have bound := low.toNat_lt
  apply UInt32.toNat_inj.mp
  rw [UInt64.toNat_toUInt32, loadUint64_toNat]
  omega

theorem loadUint64_high (low high : UInt32) : (loadUint64 low high >>> 32).toUInt32 = high := by
  have bound := low.toNat_lt
  have bound' := high.toNat_lt
  apply UInt32.toNat_inj.mp
  simp only [UInt64.toNat_toUInt32, UInt64.toNat_shiftRight, loadUint64_toNat,
    Nat.shiftRight_eq_div_pow, UInt64.reduceToNat, Nat.reduceMod]
  omega

theorem loadUint64_parts (i64 : UInt64) :
    loadUint64 i64.toUInt32 (i64 >>> 32).toUInt32 = i64 := by
  have bound := i64.toNat_lt
  apply UInt64.toNat_inj.mp
  simp only [loadUint64_toNat, UInt64.toNat_toUInt32, UInt64.toNat_shiftRight,
    Nat.shiftRight_eq_div_pow, UInt64.reduceToNat, Nat.reduceMod]
  omega

/-- Swapping eight bytes swaps the two words and each of them. -/
theorem XHTONLL_load (low high : UInt32) :
    XHTONLL (loadUint64 low high) = loadUint64 (XHTONL high) (XHTONL low) := by
  rw [XHTONLL, loadUint64_low, loadUint64_high, loadUint64, UInt64.or_comm]

theorem readUint64_written (i64 : UInt64) (rest : Bytes) :
    readUint64 (storeUint64 (XHTONLL i64) ++ rest) = .ok (i64, rest) := by
  have swapped : XHTONLL i64 = loadUint64 (XHTONL (i64 >>> 32).toUInt32) (XHTONL i64.toUInt32) := by
    rw [← XHTONLL_load, loadUint64_parts]
  obtain ⟨b0, b1, b2, b3, first, high⟩ := read_written (i64 >>> 32).toUInt32
  obtain ⟨b4, b5, b6, b7, second, low⟩ := read_written i64.toUInt32
  rw [storeUint64, swapped, loadUint64_low, loadUint64_high, first, second]
  simp only [List.cons_append, List.nil_append, readUint64]
  rw [XHTONLL_load, low, high, loadUint64_parts]

/-! What is read is what would be written. -/

theorem XHTONS_XHTONS (i16 : UInt16) : XHTONS (XHTONS i16) = i16 := by
  have bound := i16.toNat_lt
  obtain ⟨a, b, smallA, smallB, word⟩ : ∃ a b : Nat, a < 256 ∧ b < 256 ∧
      i16.toNat = a + 256 * b :=
    ⟨i16.toNat % 256, i16.toNat / 256, by omega, by omega, by omega⟩
  apply UInt16.toNat_inj.mp
  rw [XHTONS_toNat _ b a smallB smallA (XHTONS_toNat i16 a b smallA smallB word), word]

theorem XHTONL_XHTONL (i32 : UInt32) : XHTONL (XHTONL i32) = i32 := by
  have bound := i32.toNat_lt
  obtain ⟨a, b, c, d, smallA, smallB, smallC, smallD, word⟩ : ∃ a b c d : Nat,
      a < 256 ∧ b < 256 ∧ c < 256 ∧ d < 256 ∧
        i32.toNat = a + 256 * b + 65536 * c + 16777216 * d :=
    ⟨i32.toNat % 256, i32.toNat / 256 % 256, i32.toNat / 65536 % 256, i32.toNat / 16777216,
      by omega, by omega, by omega, by omega, by omega⟩
  apply UInt32.toNat_inj.mp
  rw [XHTONL_toNat _ d c b a smallD smallC smallB smallA
    (XHTONL_toNat i32 a b c d smallA smallB smallC smallD word), word]

theorem XHTONLL_XHTONLL (i64 : UInt64) : XHTONLL (XHTONLL i64) = i64 := by
  rw [← loadUint64_parts i64, XHTONLL_load, XHTONLL_load, XHTONL_XHTONL, XHTONL_XHTONL]

theorem storeUint16_load (b0 b1 : UInt8) : storeUint16 (loadUint16 b0 b1) = [b0, b1] := by
  have bound0 := b0.toNat_lt
  have bound1 := b1.toNat_lt
  have low : (loadUint16 b0 b1).toUInt8 = b0 := by
    apply UInt8.toNat_inj.mp
    rw [UInt16.toNat_toUInt8, loadUint16_toNat]
    omega
  have high : (loadUint16 b0 b1 >>> 8).toUInt8 = b1 := by
    apply UInt8.toNat_inj.mp
    simp only [UInt16.toNat_toUInt8, UInt16.toNat_shiftRight, loadUint16_toNat,
      Nat.shiftRight_eq_div_pow, UInt16.reduceToNat, Nat.reduceMod]
    omega
  rw [storeUint16, low, high]

theorem storeUint32_load (b0 b1 b2 b3 : UInt8) :
    storeUint32 (loadUint32 b0 b1 b2 b3) = [b0, b1, b2, b3] := by
  obtain ⟨byte0, byte1, byte2, byte3⟩ :=
    word_bytes _ _ _ _ b0.toNat_lt b1.toNat_lt b2.toNat_lt b3.toNat_lt
  have first : (loadUint32 b0 b1 b2 b3).toUInt8 = b0 := by
    apply UInt8.toNat_inj.mp
    rw [UInt32.toNat_toUInt8, loadUint32_toNat]
    exact byte0
  have second : (loadUint32 b0 b1 b2 b3 >>> 8).toUInt8 = b1 := by
    apply UInt8.toNat_inj.mp
    simp only [UInt32.toNat_toUInt8, UInt32.toNat_shiftRight, loadUint32_toNat,
      Nat.shiftRight_eq_div_pow, UInt32.reduceToNat, Nat.reduceMod, Nat.reducePow]
    exact byte1
  have third : (loadUint32 b0 b1 b2 b3 >>> 16).toUInt8 = b2 := by
    apply UInt8.toNat_inj.mp
    simp only [UInt32.toNat_toUInt8, UInt32.toNat_shiftRight, loadUint32_toNat,
      Nat.shiftRight_eq_div_pow, UInt32.reduceToNat, Nat.reduceMod, Nat.reducePow]
    exact byte2
  have fourth : (loadUint32 b0 b1 b2 b3 >>> 24).toUInt8 = b3 := by
    apply UInt8.toNat_inj.mp
    simp only [UInt32.toNat_toUInt8, UInt32.toNat_shiftRight, loadUint32_toNat,
      Nat.shiftRight_eq_div_pow, UInt32.reduceToNat, Nat.reduceMod, Nat.reducePow]
    exact byte3
  rw [storeUint32, first, second, third, fourth]

theorem readUint8_bytes (data rest : Bytes) (i8 : UInt8) (done : readUint8 data = .ok (i8, rest)) :
    data = [i8] ++ rest := by
  cases data with
  | nil => cases done
  | cons b0 data =>
      cases done
      rfl

theorem readUint16_bytes (data rest : Bytes) (i16 : UInt16)
    (done : readUint16 data = .ok (i16, rest)) :
    data = storeUint16 (XHTONS i16) ++ rest := by
  simp only [readUint16] at done
  split at done
  · cases done
    rw [XHTONS_XHTONS, storeUint16_load]
    rfl
  · cases done

theorem readUint32_bytes (data rest : Bytes) (i32 : UInt32)
    (done : readUint32 data = .ok (i32, rest)) :
    data = storeUint32 (XHTONL i32) ++ rest := by
  simp only [readUint32] at done
  split at done
  · cases done
    rw [XHTONL_XHTONL, storeUint32_load]
    rfl
  · cases done

theorem readUint64_bytes (data rest : Bytes) (i64 : UInt64)
    (done : readUint64 data = .ok (i64, rest)) :
    data = storeUint64 (XHTONLL i64) ++ rest := by
  simp only [readUint64] at done
  split at done
  · cases done
    rw [XHTONLL_XHTONLL, storeUint64, loadUint64_low, loadUint64_high, storeUint32_load,
      storeUint32_load]
    rfl
  · cases done

end FPayNode.ByteStream
