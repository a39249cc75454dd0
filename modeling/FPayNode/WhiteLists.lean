import FPayNode.DottedAddress
import Mathlib.Data.Finset.Insert

/-!
`core/xnet/WhiteLst.cpp`: the addresses that may connect. A range is walked in
host order with a counter that wraps; a line of a block falls through to the
case of a range.
-/

namespace FPayNode.WhiteLists

open DecimalText ByteStream DottedAddress

/-! The bits of a word whose bytes are swapped. -/

theorem XHTONS_bit (i16 : UInt16) (i : Nat) (small : i < 8) :
    (XHTONS i16).toBitVec.getLsbD i = i16.toBitVec.getLsbD (8 + i) ∧
      (XHTONS i16).toBitVec.getLsbD (8 + i) = i16.toBitVec.getLsbD i := by
  have wide : i16.toBitVec.getLsbD (8 + (8 + i)) = false := BitVec.getLsbD_of_ge _ _ (by omega)
  constructor
  · simp [-BitVec.getLsbD_eq_getElem, XHTONS, small]
  · simp [-BitVec.getLsbD_eq_getElem, XHTONS, wide]
    omega

theorem XHTONL_bit (i32 : UInt32) (i : Nat) (small : i < 8) :
    (XHTONL i32).toBitVec.getLsbD i = i32.toBitVec.getLsbD (24 + i) ∧
      (XHTONL i32).toBitVec.getLsbD (8 + i) = i32.toBitVec.getLsbD (16 + i) ∧
      (XHTONL i32).toBitVec.getLsbD (16 + i) = i32.toBitVec.getLsbD (8 + i) ∧
      (XHTONL i32).toBitVec.getLsbD (24 + i) = i32.toBitVec.getLsbD i := by
  have low := XHTONS_bit i32.toUInt16 i small
  have high := XHTONS_bit (i32 >>> 16).toUInt16 i small
  have first : i < 16 := by omega
  have second : 8 + i < 16 := by omega
  have third : 16 + i < 32 := by omega
  have fourth : 24 + i < 32 := by omega
  have upper : 24 + i - 16 = 8 + i := by omega
  have none : (XHTONS (i32 >>> 16).toUInt16).toBitVec.getLsbD (24 + i) = false :=
    BitVec.getLsbD_of_ge _ _ (by omega)
  refine ⟨?_, ?_, ?_, ?_⟩
  · have below : i < 32 := by omega
    simp [-BitVec.getLsbD_eq_getElem, XHTONL, high.1, first, second, below]
    congr 1
    omega
  · have below : 8 + i < 32 := by omega
    simp [-BitVec.getLsbD_eq_getElem, XHTONL, high.2, first, second, below]
  · have below : i < 32 := by omega
    simp [-BitVec.getLsbD_eq_getElem, XHTONL, low.1, second, third, below]
  · have below : 8 + i < 32 := by omega
    simp [-BitVec.getLsbD_eq_getElem, XHTONL, low.2, first, fourth, none, upper, below]
    omega

/-- Words with the same bits in each of the bytes. -/
theorem word_ext (left right : UInt32) (same : ∀ i < 8,
    left.toBitVec.getLsbD i = right.toBitVec.getLsbD i ∧
      left.toBitVec.getLsbD (8 + i) = right.toBitVec.getLsbD (8 + i) ∧
      left.toBitVec.getLsbD (16 + i) = right.toBitVec.getLsbD (16 + i) ∧
      left.toBitVec.getLsbD (24 + i) = right.toBitVec.getLsbD (24 + i)) : left = right := by
  apply UInt32.eq_of_toBitVec_eq
  apply BitVec.eq_of_getLsbD_eq
  intro i small
  obtain ⟨one, two, three, four⟩ := same (i % 8) (Nat.mod_lt i (by omega))
  obtain byte | byte | byte | byte :
    i = i % 8 ∨ i = 8 + i % 8 ∨ i = 16 + i % 8 ∨ i = 24 + i % 8 := by omega
  all_goals rw [byte]
  · exact one
  · exact two
  · exact three
  · exact four

theorem XHTONL_and (left right : UInt32) :
    XHTONL (left &&& right) = XHTONL left &&& XHTONL right := by
  apply word_ext
  intro i small
  simp [-BitVec.getLsbD_eq_getElem, XHTONL_bit _ i small]

theorem XHTONL_or (left right : UInt32) :
    XHTONL (left ||| right) = XHTONL left ||| XHTONL right := by
  apply word_ext
  intro i small
  simp [-BitVec.getLsbD_eq_getElem, XHTONL_bit _ i small]

theorem XHTONL_not (i32 : UInt32) : XHTONL (~~~i32) = ~~~XHTONL i32 := by
  apply word_ext
  intro i small
  have first : i < 32 := by omega
  have second : 8 + i < 32 := by omega
  have third : 16 + i < 32 := by omega
  have fourth : 24 + i < 32 := by omega
  simp [-BitVec.getLsbD_eq_getElem, XHTONL_bit _ i small, first, second, third, fourth]

/-! The list. -/

abbrev htonl : UInt32 → UInt32 := XHTONL

abbrev ntohl : UInt32 → UInt32 := XHTONL

theorem ntohl_htonl (i : UInt32) : ntohl (htonl i) = i := XHTONL_XHTONL i

theorem htonl_ntohl (h : UInt32) : htonl (ntohl h) = h := XHTONL_XHTONL h

def valid_addr (ip : UInt32) : Prop := ip ≠ INADDR_NONE

instance (ip : UInt32) : Decidable (valid_addr ip) := inferInstanceAs (Decidable (_ ≠ _))

/-- Only valid addresses are ever listed. -/
structure WhiteLst where
  m_hosts : Finset UInt32
  valid : ∀ host ∈ m_hosts, valid_addr host

namespace WhiteLst

def empty : WhiteLst := ⟨∅, fun _ member => absurd member (Finset.notMem_empty _)⟩

def find (list : WhiteLst) (ip : UInt32) : Bool := ip ∈ list.m_hosts

def insert (list : WhiteLst) (host : UInt32) (valid : valid_addr host) : WhiteLst :=
  ⟨Insert.insert host list.m_hosts, by
    intro other member
    rcases Finset.mem_insert.mp member with same | old
    · rw [same]
      exact valid
    · exact list.valid other old⟩

theorem find_insert (list : WhiteLst) (host : UInt32) (valid : valid_addr host) (ip : UInt32) :
    (list.insert host valid).find ip = true ↔ list.find ip = true ∨ ip = host := by
  simp only [find, insert, decide_eq_true_eq, Finset.mem_insert]
  exact or_comm

theorem find_valid (list : WhiteLst) (ip : UInt32) (found : list.find ip = true) :
    valid_addr ip := list.valid ip (of_decide_eq_true found)

/-- `add` of one host. -/
def add (host : UInt32) (list : WhiteLst) : WhiteLst :=
  if valid : valid_addr host then list.insert host valid else list

end WhiteLst

/-- Below the largest word in host order an address is valid. -/
theorem valid_below (i i2 : UInt32) (within : i ≤ i2) (last : i2 ≠ 0xFFFFFFFF) :
    valid_addr (htonl i) := by
  intro none
  have largest : i = 0xFFFFFFFF := by
    rw [← ntohl_htonl i, show htonl i = 0xFFFFFFFF from none]
    decide
  apply last
  apply UInt32.toNat_inj.mp
  have below := i2.toNat_lt
  have above : i.toNat ≤ i2.toNat := UInt32.le_iff_toNat_le.mp within
  rw [largest] at above
  have most : (0xFFFFFFFF : UInt32).toNat = 4294967295 := rfl
  omega

theorem ntohl_valid (h : UInt32) (valid : valid_addr h) : ntohl h ≠ 0xFFFFFFFF := by
  intro largest
  apply valid
  rw [← htonl_ntohl h, largest]
  decide

/-- The loop of `add`; none when there are more rounds. -/
def addLoop (i2 : UInt32) (last : i2 ≠ 0xFFFFFFFF) : Nat → UInt32 → WhiteLst → Option WhiteLst
  | 0, i, list => if i ≤ i2 then none else some list
  | rounds + 1, i, list =>
      if within : i ≤ i2 then
        addLoop i2 last rounds (i + 1) (list.insert (htonl i) (valid_below i i2 within last))
      else some list

/-- `add` of a range. -/
def addRange (rounds : Nat) (h1 h2 : UInt32) (list : WhiteLst) : Option WhiteLst :=
  if valid : valid_addr h1 ∧ valid_addr h2 then
    if ntohl h2 - ntohl h1 > 64 * 1024 then some list
    else addLoop (ntohl h2) (ntohl_valid h2 valid.2) rounds (ntohl h1) list
  else some list

/-- The addresses from one to another, in host order. -/
def Between (first last a : UInt32) : Prop :=
  (ntohl first).toNat ≤ (ntohl a).toNat ∧ (ntohl a).toNat ≤ (ntohl last).toNat

instance (first last a : UInt32) : Decidable (Between first last a) :=
  inferInstanceAs (Decidable (_ ∧ _))

/-- Behind the last address there is none left. -/
theorem none_left (i i2 a : UInt32) (beyond : ¬ i ≤ i2) :
    ¬ (i.toNat ≤ (ntohl a).toNat ∧ (ntohl a).toNat ≤ i2.toNat) := by
  rw [UInt32.le_iff_toNat_le] at beyond
  rintro ⟨least, most⟩
  omega

theorem eq_htonl_iff (a i : UInt32) : a = htonl i ↔ (ntohl a).toNat = i.toNat := by
  constructor
  · rintro rfl
    rw [ntohl_htonl]
  · intro same
    rw [← UInt32.toNat_inj.mp same, htonl_ntohl]

/-- With a round for each address that is left, the loop ends and has inserted
them. -/
theorem addLoop_exact (i2 : UInt32) (last : i2 ≠ 0xFFFFFFFF) (rounds : Nat) (i : UInt32)
    (list : WhiteLst) (enough : i2.toNat + 1 - i.toNat ≤ rounds) :
    ∃ after, addLoop i2 last rounds i list = some after ∧ ∀ a, after.find a = true ↔
      list.find a = true ∨ i.toNat ≤ (ntohl a).toNat ∧ (ntohl a).toNat ≤ i2.toNat := by
  have bound := i2.toNat_lt
  have below : i2.toNat ≠ 4294967295 := fun largest => last (UInt32.toNat_inj.mp largest)
  induction rounds generalizing i list with
  | zero =>
      have beyond : ¬ i ≤ i2 := by
        rw [UInt32.le_iff_toNat_le]
        omega
      exact ⟨list, if_neg beyond, fun a => (or_iff_left (none_left i i2 a beyond)).symm⟩
  | succ rounds ih =>
      by_cases within : i ≤ i2
      · have inside : i.toNat ≤ i2.toNat := UInt32.le_iff_toNat_le.mp within
        -- The counter is below the largest word, so it does not wrap.
        have next : (i + 1).toNat = i.toNat + 1 := by
          rw [UInt32.toNat_add]
          exact Nat.mod_eq_of_lt (by change i.toNat + 1 < _; omega)
        obtain ⟨after, done, found⟩ := ih (i + 1)
          (list.insert (htonl i) (valid_below i i2 within last)) (by omega)
        refine ⟨after, (dif_pos within).trans done, fun a => ?_⟩
        rw [found a, WhiteLst.find_insert, eq_htonl_iff, next]
        constructor
        · rintro ((old | same) | ⟨least, most⟩)
          · exact .inl old
          · exact .inr ⟨by omega, by omega⟩
          · exact .inr ⟨by omega, most⟩
        · rintro (old | ⟨least, most⟩)
          · exact .inl (.inl old)
          · by_cases same : (ntohl a).toNat = i.toNat
            · exact .inl (.inr same)
            · exact .inr ⟨by omega, most⟩
      · exact ⟨list, dif_neg within, fun a => (or_iff_left (none_left i i2 a within)).symm⟩

/-- What a range adds to the list. -/
def RangeAdded (h1 h2 : UInt32) (list after : WhiteLst) : Prop :=
  ∀ a, after.find a = true ↔ list.find a = true ∨
    valid_addr h1 ∧ valid_addr h2 ∧ Between h1 h2 a ∧
      (ntohl h2).toNat - (ntohl h1).toNat ≤ 64 * 1024

theorem addRange_exact (rounds : Nat) (enough : 64 * 1024 + 1 ≤ rounds) (h1 h2 : UInt32)
    (list : WhiteLst) : ∃ after, addRange rounds h1 h2 list = some after ∧
      RangeAdded h1 h2 list after := by
  have first := (ntohl h1).toNat_lt
  have second := (ntohl h2).toNat_lt
  have span : (ntohl h2 - ntohl h1).toNat =
      (2 ^ 32 - (ntohl h1).toNat + (ntohl h2).toNat) % 2 ^ 32 := UInt32.toNat_sub _ _
  by_cases valid : valid_addr h1 ∧ valid_addr h2
  · by_cases guarded : ntohl h2 - ntohl h1 > 64 * 1024
    · refine ⟨list, ?_, fun a => ?_⟩
      · rw [addRange, dif_pos valid, if_pos guarded]
      · have wide : 64 * 1024 < (ntohl h2 - ntohl h1).toNat := UInt32.lt_iff_toNat_lt.mp guarded
        constructor
        · exact .inl
        · rintro (old | ⟨-, -, ⟨least, most⟩, short⟩)
          · exact old
          · omega
    · have short : (ntohl h2 - ntohl h1).toNat ≤ 64 * 1024 :=
        Nat.not_lt.mp fun wide => guarded (UInt32.lt_iff_toNat_lt.mpr wide)
      obtain ⟨after, done, found⟩ := addLoop_exact (ntohl h2) (ntohl_valid h2 valid.2) rounds
        (ntohl h1) list (by omega)
      refine ⟨after, ?_, fun a => ?_⟩
      · rw [addRange, dif_pos valid, if_neg guarded]
        exact done
      · rw [found a]
        constructor
        · rintro (old | ⟨least, most⟩)
          · exact .inl old
          · exact .inr ⟨valid.1, valid.2, ⟨least, most⟩, by omega⟩
        · rintro (old | ⟨-, -, inside, -⟩)
          · exact .inl old
          · exact .inr inside
  · refine ⟨list, dif_neg valid, fun a => ?_⟩
    constructor
    · exact .inl
    · rintro (old | ⟨one, two, -⟩)
      · exact old
      · exact absurd ⟨one, two⟩ valid

/-- Whatever the two addresses are, the loop ends within 64K + 1 rounds and has
added the addresses between them, if both are valid and they are not too far
apart, and nothing otherwise. -/
theorem add_range_ends_exact (h1 h2 : UInt32) (list : WhiteLst) :
    ∃ after, addRange (64 * 1024 + 1) h1 h2 list = some after ∧ RangeAdded h1 h2 list after :=
  addRange_exact _ (Nat.le_refl _) h1 h2 list

/-! Reading a line. -/

/-- The loop that builds a mask; the length is decremented before each test. -/
def maskLoop : Nat → UInt32 → UInt32
  | len + 1, mask => if len > 0 then maskLoop len (mask >>> 1 ||| 0x80000000) else mask
  | 0, mask => mask

def atoi (text : Bytes) : Int := (Int32.ofInt (atoll text)).toInt

/-- `parse_add`. There is no `break` behind the case of a block. -/
def parse_add (rounds : Nat) (host : Bytes) (list : WhiteLst) : Option WhiteLst :=
  match (host.takeWhile fun byte => byte ≠ 0).findIdx? fun byte => byte = 47 ∨ byte = 45 with
  | none => some (list.add (aton_addr host))
  | some c =>
      let ip1 := aton_addr (host.take c)
      let ip2 := aton_addr (host.drop (c + 1))
      if valid_addr ip1 then
        if host[c]? = some 47 then
          let len := atoi (host.drop (c + 1))
          if len ≤ 0 ∨ len > 32 then some list
          else
            let mask := htonl (maskLoop len.toNat 0x80000000)
            (addRange rounds (ip1 &&& mask) (ip1 ||| ~~~mask) list).bind (addRange rounds ip1 ip2)
        else addRange rounds ip1 ip2 list
      else some list

/-- A line of a list. -/
inductive Line where
  | host (ip : UInt32)
  | block (ip : UInt32) (len : Nat)
  | range (first last : UInt32)

def Denotes : Line → UInt32 → Prop
  | .host ip, x => x = ip
  | .block ip len, x => (ntohl x).toNat / 2 ^ (32 - len) = (ntohl ip).toNat / 2 ^ (32 - len)
  | .range first last, x => Between first last x

instance (x : UInt32) : ∀ line, Decidable (Denotes line x)
  | .host _ => inferInstanceAs (Decidable (_ = _))
  | .block _ _ => inferInstanceAs (Decidable (_ = _))
  | .range _ _ => inferInstanceAs (Decidable (_ ∧ _))

/-- More than 64K + 1 addresses. -/
def TooWide : Line → Prop
  | .host _ => False
  | .block _ len => 64 * 1024 + 1 < 2 ^ (32 - len)
  | .range first last => 64 * 1024 + 1 < (ntohl last).toNat + 1 - (ntohl first).toNat

instance : ∀ line, Decidable (TooWide line)
  | .host _ => inferInstanceAs (Decidable False)
  | .block _ _ => inferInstanceAs (Decidable (_ < _))
  | .range _ _ => inferInstanceAs (Decidable (_ < _))

/-- A range between valid ends adds what lies in it, unless that is too much. -/
theorem RangeAdded.narrow {h1 h2 : UInt32} {list after : WhiteLst}
    (added : RangeAdded h1 h2 list after) (x : UInt32)
    (valid : Between h1 h2 x → valid_addr h1 ∧ valid_addr h2) :
    after.find x = true ↔
      list.find x = true ∨ ¬ TooWide (.range h1 h2) ∧ Between h1 h2 x := by
  rw [added x, TooWide]
  constructor
  · rintro (old | ⟨-, -, inside, short⟩)
    · exact .inl old
    · exact .inr ⟨by omega, inside⟩
  · rintro (old | ⟨narrow, inside⟩)
    · exact .inl old
    · exact .inr ⟨(valid inside).1, (valid inside).2, inside, by omega⟩

/-- A text that `inet_addr` reads as an address. -/
structure Names (text : Bytes) (ip : UInt32) : Prop where
  plain : ∀ byte ∈ text, byte ≠ 47 ∧ byte ≠ 45 ∧ byte ≠ 0
  reads : inet_aton 3 [] text = some ip

/-- How a line is written. A block has a length, and 255.255.255.255 is not in it. -/
def Writes (text : Bytes) : Line → Prop
  | .host ip => Names text ip
  | .block ip len => (1 ≤ len ∧ len ≤ 32 ∧ ¬ Denotes (.block ip len) INADDR_NONE) ∧
      ∃ front, Names front ip ∧ text = front ++ 47 :: natText len
  | .range first last => ∃ front back, Names front first ∧ Names back last ∧
      text = front ++ 45 :: back

/-- What is asked of a line: what it denotes is added and nothing else, and
nothing at all when that is too much. -/
def Adds (text : Bytes) (line : Line) (list : WhiteLst) : Prop :=
  ∃ after, parse_add (64 * 1024 + 1) text list = some after ∧ ∀ x, after.find x = true ↔
    list.find x = true ∨ ¬ TooWide line ∧ Denotes line x

/-- The error value of `inet_addr` is not a host, and not the end of a range
that could be added; and from the address of a block up to its length as an
address there is none that is new. -/
def Harmless (list : WhiteLst) : Line → Prop
  | .host ip => valid_addr ip
  | .block ip len => ∀ x, (ntohl ip).toNat ≤ (ntohl x).toNat → (ntohl x).toNat ≤ len →
      list.find x = true ∨ ¬ TooWide (.block ip len) ∧ Denotes (.block ip len) x
  | .range first last => valid_addr last ∨ TooWide (.range first last)

/-! The parts of a line. -/

theorem names_aton (text : Bytes) (ip : UInt32) (names : Names text ip) :
    aton_addr text = ip := by
  have whole : text.takeWhile (fun byte => byte ≠ 0) = text :=
    List.takeWhile_eq_self_iff.mpr fun byte member =>
      decide_eq_true (names.plain byte member).2.2
  rw [aton_addr, whole, names.reads, Option.getD_some]

theorem digit_nonzero (byte : UInt8) (digit : isDigit byte = true) : byte ≠ 0 := by
  rintro rfl
  cases digit

/-- A plain number is the address with as many in host order. -/
theorem aton_natText (n : Nat) (positive : n ≠ 0) (small : n < 2 ^ 32) :
    aton_addr (natText n) = htonl (UInt32.ofNat n) := by
  have whole : (natText n).takeWhile (fun byte => byte ≠ 0) = natText n :=
    List.takeWhile_eq_self_iff.mpr fun byte member =>
      decide_eq_true (digit_nonzero byte (natText_digits n byte member))
  have number : strtoul (natText n) = (n, []) := by
    have read := readDigits_natText n [] (fun _ member => nomatch member)
    rw [List.append_nil] at read
    rw [strtoul, if_neg (natText_head_nonzero n positive), read]
  have digit : (natText n).head?.any isDigit = true := by
    obtain ⟨first, more, text, is⟩ := natText_head n
    rw [text]
    exact is
  have nothing : loadUint32 (([] : List UInt8).getD 0 0) (([] : List UInt8).getD 1 0)
      (([] : List UInt8).getD 2 0) 0 = 0 := by decide
  rw [aton_addr, whole, inet_aton, digit, number]
  simp only [Bool.not_true, Bool.false_eq_true, if_false, List.head?_nil, Option.any_none,
    reduceCtorEq, List.length_nil, nothing, UInt32.zero_or]
  rw [if_neg (by omega), if_neg (by omega), Option.getD_some]

theorem atoi_natText (n : Nat) (small : n < 2 ^ 31) : atoi (natText n) = n := by
  have printed : natText n = decimal n := by
    rw [decimal, if_neg (by omega), Int.natAbs_natCast]
  have fits : Fits n := by
    constructor
    · omega
    · omega
  rw [atoi, printed, atoll_decimal n fits]
  exact Int32.toInt_ofInt_of_le (by omega) (by omega)

/-- A line without a separator. -/
theorem parse_host (rounds : Nat) (text : Bytes) (ip : UInt32) (names : Names text ip)
    (list : WhiteLst) : parse_add rounds text list = some (list.add ip) := by
  have absent : (text.takeWhile fun byte => byte ≠ 0).findIdx?
      (fun byte => byte = 47 ∨ byte = 45) = none := by
    rw [List.findIdx?_eq_none_iff]
    intro byte member
    have plain := names.plain byte ((List.takeWhile_sublist _).mem member)
    exact decide_eq_false (not_or.mpr ⟨plain.1, plain.2.1⟩)
  rw [parse_add, absent, names_aton text ip names]

/-- Behind the first separator stands the rest of the line. -/
theorem separator_found (front back : Bytes) (ip : UInt32) (names : Names front ip)
    (separator : UInt8) (separates : separator = 47 ∨ separator = 45) :
    ((front ++ separator :: back).takeWhile fun byte => byte ≠ 0).findIdx?
      (fun byte => byte = 47 ∨ byte = 45) = some front.length := by
  have nonzero : separator ≠ 0 := by
    rcases separates with rfl | rfl
    · decide
    · decide
  have kept : (front ++ separator :: back).takeWhile (fun byte => byte ≠ 0) =
      front ++ separator :: back.takeWhile fun byte => byte ≠ 0 := by
    rw [List.takeWhile_append_of_pos fun byte member =>
      decide_eq_true (names.plain byte member).2.2, List.takeWhile_cons, if_pos
        (decide_eq_true nonzero)]
  rw [kept, List.findIdx?_append]
  have absent : front.findIdx? (fun byte => byte = 47 ∨ byte = 45) = none := by
    rw [List.findIdx?_eq_none_iff]
    intro byte member
    have plain := names.plain byte member
    exact decide_eq_false (not_or.mpr ⟨plain.1, plain.2.1⟩)
  rw [absent, List.findIdx?_cons, if_pos (decide_eq_true separates)]
  simp

/-- The parts of a line around the separator. -/
theorem separated (front back : Bytes) (separator : UInt8) :
    (front ++ separator :: back).take front.length = front ∧
      (front ++ separator :: back)[front.length]? = some separator ∧
      (front ++ separator :: back).drop (front.length + 1) = back := by
  refine ⟨List.take_left, ?_, ?_⟩
  · rw [List.getElem?_append_right (Nat.le_refl _), Nat.sub_self, List.getElem?_cons_zero]
  · rw [← List.drop_drop, List.drop_left]
    rfl

/-- A line of a range; an invalid address adds nothing either way. -/
theorem parse_range (rounds : Nat) (front back : Bytes) (first : UInt32)
    (names : Names front first) (list : WhiteLst) :
    parse_add rounds (front ++ 45 :: back) list = addRange rounds first (aton_addr back) list := by
  obtain ⟨taken, here, rest⟩ := separated front back 45
  rw [parse_add, separator_found front back first names 45 (.inr rfl)]
  simp only [taken, rest, names_aton front first names]
  by_cases valid : valid_addr first
  · rw [if_pos valid, if_neg (by rw [here]; decide)]
  · rw [if_neg valid, addRange, dif_neg fun both => valid both.1]

theorem parse_block (rounds : Nat) (front : Bytes) (ip : UInt32) (len : Nat)
    (names : Names front ip) (valid : valid_addr ip) (positive : 1 ≤ len) (most : len ≤ 32)
    (list : WhiteLst) : parse_add rounds (front ++ 47 :: natText len) list =
      (addRange rounds (ip &&& htonl (maskLoop len 0x80000000))
        (ip ||| ~~~htonl (maskLoop len 0x80000000)) list).bind
          (addRange rounds ip (htonl (UInt32.ofNat len))) := by
  obtain ⟨taken, here, rest⟩ := separated front (natText len) 47
  rw [parse_add, separator_found front (natText len) ip names 47 (.inl rfl)]
  simp only [taken, rest, names_aton front ip names]
  rw [if_pos valid, if_pos here, atoi_natText len (by omega), if_neg (by omega),
    aton_natText len (by omega) (by omega), Int.toNat_natCast]

/-! The block of an address. -/

/-- The bits of a number from some place on. -/
theorem and_prefix (k s w : Nat) (wide : k < 2 ^ w) (small : s ≤ w) :
    k &&& 2 ^ s * (2 ^ (w - s) - 1) = 2 ^ s * (k / 2 ^ s) := by
  apply Nat.eq_of_testBit_eq
  intro i
  have mask := Nat.testBit_two_pow_mul_add (2 ^ (w - s) - 1) (Nat.two_pow_pos s) i
  have kept := Nat.testBit_two_pow_mul_add (k / 2 ^ s) (Nat.two_pow_pos s) i
  rw [Nat.add_zero] at mask kept
  rw [Nat.testBit_and, mask, kept]
  by_cases low : i < s
  · simp only [low, if_true, Nat.zero_testBit, Bool.and_false]
  · rw [if_neg low, if_neg low, Nat.testBit_two_pow_sub_one, Nat.testBit_div_two_pow,
      Nat.sub_add_cancel (Nat.not_lt.mp low)]
    by_cases inside : i < w
    · rw [decide_eq_true (by omega), Bool.and_true]
    · have beyond : k < 2 ^ i :=
        wide.trans_le (Nat.pow_le_pow_right (by omega) (Nat.not_lt.mp inside))
      rw [Nat.testBit_lt_two_pow beyond, Bool.false_and]

theorem or_rest (k s : Nat) : k ||| (2 ^ s - 1) = 2 ^ s * (k / 2 ^ s) + (2 ^ s - 1) := by
  have positive := Nat.two_pow_pos s
  apply Nat.eq_of_testBit_eq
  intro i
  rw [Nat.testBit_or, Nat.testBit_two_pow_mul_add _ (by omega) i, Nat.testBit_two_pow_sub_one]
  by_cases low : i < s
  · rw [if_pos low, decide_eq_true low, Bool.or_true]
  · rw [if_neg low, decide_eq_false low, Bool.or_false, Nat.testBit_div_two_pow,
      Nat.sub_add_cancel (Nat.not_lt.mp low)]

/-- Each mask has its first bits set and the others not. -/
theorem maskLoop_toNat (len : Nat) (positive : 1 ≤ len) (most : len ≤ 32) :
    (maskLoop len 0x80000000).toNat = 2 ^ (32 - len) * (2 ^ (32 - (32 - len)) - 1) ∧
      (~~~maskLoop len 0x80000000).toNat = 2 ^ (32 - len) - 1 := by
  have each : ∀ len < 33, 1 ≤ len →
      (maskLoop len 0x80000000).toNat = 2 ^ (32 - len) * (2 ^ (32 - (32 - len)) - 1) ∧
        (~~~maskLoop len 0x80000000).toNat = 2 ^ (32 - len) - 1 := by decide
  exact each len (by omega) positive

section Block
variable (ip : UInt32) (len : Nat) (positive : 1 ≤ len) (most : len ≤ 32)
include positive most

/-- The first and the last address of a block. -/
theorem block_ends :
    (ntohl (ip &&& htonl (maskLoop len 0x80000000))).toNat =
        2 ^ (32 - len) * ((ntohl ip).toNat / 2 ^ (32 - len)) ∧
      (ntohl (ip ||| ~~~htonl (maskLoop len 0x80000000))).toNat =
        2 ^ (32 - len) * ((ntohl ip).toNat / 2 ^ (32 - len)) + (2 ^ (32 - len) - 1) := by
  obtain ⟨mask, rest⟩ := maskLoop_toNat len positive most
  have first : ntohl (ip &&& htonl (maskLoop len 0x80000000)) =
      ntohl ip &&& maskLoop len 0x80000000 := by
    rw [ntohl, XHTONL_and]
    exact congrArg (XHTONL ip &&& ·) (ntohl_htonl _)
  have last : ntohl (ip ||| ~~~htonl (maskLoop len 0x80000000)) =
      ntohl ip ||| ~~~maskLoop len 0x80000000 := by
    rw [ntohl, XHTONL_or, XHTONL_not]
    exact congrArg (XHTONL ip ||| ~~~·) (ntohl_htonl _)
  constructor
  · rw [first, UInt32.toNat_and, mask]
    exact and_prefix _ _ 32 (ntohl ip).toNat_lt (by omega)
  · rw [last, UInt32.toNat_or, rest]
    exact or_rest _ _

theorem block_between (x : UInt32) :
    Between (ip &&& htonl (maskLoop len 0x80000000)) (ip ||| ~~~htonl (maskLoop len 0x80000000)) x ↔
      Denotes (.block ip len) x := by
  obtain ⟨first, last⟩ := block_ends ip len positive most
  have size := Nat.two_pow_pos (32 - len)
  rw [Between, first, last, Denotes, Nat.div_eq_iff size, Nat.mul_comm _ (2 ^ (32 - len))]
  omega

variable (valid : ¬ Denotes (.block ip len) INADDR_NONE)
include valid

/-- The addresses of a block are added, unless they are too many. -/
theorem block_added (list : WhiteLst) : ∃ after,
    addRange (64 * 1024 + 1) (ip &&& htonl (maskLoop len 0x80000000))
      (ip ||| ~~~htonl (maskLoop len 0x80000000)) list = some after ∧
    ∀ x, after.find x = true ↔
      list.find x = true ∨ ¬ TooWide (.block ip len) ∧ Denotes (.block ip len) x := by
  obtain ⟨first, last⟩ := block_ends ip len positive most
  have between := block_between ip len positive most
  have size := Nat.two_pow_pos (32 - len)
  obtain ⟨after, done, added⟩ := addRange_exact (64 * 1024 + 1) (Nat.le_refl _)
    (ip &&& htonl (maskLoop len 0x80000000)) (ip ||| ~~~htonl (maskLoop len 0x80000000)) list
  have validFirst : valid_addr (ip &&& htonl (maskLoop len 0x80000000)) := by
    intro none
    have inside := (between _).mp ⟨Nat.le_refl _, by omega⟩
    rw [none] at inside
    exact valid inside
  have validLast : valid_addr (ip ||| ~~~htonl (maskLoop len 0x80000000)) := by
    intro none
    have inside := (between _).mp ⟨by omega, Nat.le_refl _⟩
    rw [none] at inside
    exact valid inside
  have wide : TooWide (.range (ip &&& htonl (maskLoop len 0x80000000))
      (ip ||| ~~~htonl (maskLoop len 0x80000000))) ↔ TooWide (.block ip len) := by
    rw [TooWide, TooWide, first, last]
    omega
  refine ⟨after, done, fun x => ?_⟩
  rw [added.narrow x fun _ => ⟨validFirst, validLast⟩, between x, wide]

end Block

/-! Lines. -/

section Lines
variable (text : Bytes) (list : WhiteLst)

theorem host_adds_iff (ip : UInt32) (names : Names text ip) :
    Adds text (.host ip) list ↔ Harmless list (.host ip) := by
  have added := parse_host (64 * 1024 + 1) text ip names list
  by_cases valid : valid_addr ip
  · refine iff_of_true ⟨list.add ip, added, fun x => ?_⟩ valid
    rw [WhiteLst.add, dif_pos valid, WhiteLst.find_insert]
    exact ⟨Or.imp_right fun same => ⟨not_false, same⟩, Or.imp_right And.right⟩
  · refine iff_of_false ?_ valid
    rintro ⟨after, done, found⟩
    have host : after.find ip = true := (found ip).mpr (.inr ⟨not_false, rfl⟩)
    exact valid (after.find_valid ip host)

/-- The error value is the largest address, and no other one reaches it. -/
theorem between_valid (first last x : UInt32) (inside : Between first last x)
    (valid : valid_addr last) : valid_addr first := by
  rintro rfl
  apply ntohl_valid last valid
  apply UInt32.toNat_inj.mp
  have least := inside.1.trans inside.2
  have bound := (ntohl last).toNat_lt
  have most : (ntohl INADDR_NONE).toNat = 4294967295 := by decide
  have largest : (0xFFFFFFFF : UInt32).toNat = 4294967295 := rfl
  omega

theorem range_adds_iff (first last : UInt32) (writes : Writes text (.range first last)) :
    Adds text (.range first last) list ↔ Harmless list (.range first last) := by
  obtain ⟨front, back, names, namesLast, rfl⟩ := writes
  obtain ⟨after, done, added⟩ := addRange_exact (64 * 1024 + 1) (Nat.le_refl _) first last list
  have parsed : parse_add (64 * 1024 + 1) (front ++ 45 :: back) list = some after := by
    rw [parse_range _ front back first names, names_aton back last namesLast, done]
  by_cases valid : valid_addr last
  · refine iff_of_true ⟨after, parsed, fun x => ?_⟩ (.inl valid)
    exact added.narrow x fun inside => ⟨between_valid first last x inside valid, valid⟩
  · by_cases wide : TooWide (.range first last)
    · refine iff_of_true ⟨after, parsed, fun x => ?_⟩ (.inr wide)
      rw [added x]
      constructor
      · rintro (old | ⟨-, ends, -⟩)
        · exact .inl old
        · exact absurd ends valid
      · rintro (old | ⟨narrow, -⟩)
        · exact .inl old
        · exact absurd wide narrow
    · refine iff_of_false ?_ (not_or.mpr ⟨valid, wide⟩)
      rintro ⟨other, -, found⟩
      -- The range ends at the error value, which is never listed.
      have largest : ntohl last = 0xFFFFFFFF := by
        rw [Decidable.not_not.mp valid]
        decide
      have bound := (ntohl first).toNat_lt
      have inside : Between first last last := by
        refine ⟨?_, Nat.le_refl _⟩
        rw [largest]
        change _ ≤ 4294967295
        omega
      exact valid (other.find_valid last ((found last).mpr (.inr ⟨wide, inside⟩)))

/-- What a line of a block adds: the block, and what the next case adds behind it. -/
theorem block_parsed (ip : UInt32) (len : Nat) (writes : Writes text (.block ip len)) :
    ∃ after, parse_add (64 * 1024 + 1) text list = some after ∧ ∀ x, after.find x = true ↔
      (list.find x = true ∨ ¬ TooWide (.block ip len) ∧ Denotes (.block ip len) x) ∨
        (ntohl ip).toNat ≤ (ntohl x).toNat ∧ (ntohl x).toNat ≤ len := by
  obtain ⟨⟨positive, most, outside⟩, front, names, rfl⟩ := writes
  obtain ⟨middle, block, exact⟩ := block_added ip len positive most outside list
  obtain ⟨after, rest, more⟩ := addRange_exact (64 * 1024 + 1) (Nat.le_refl _) ip
    (htonl (UInt32.ofNat len)) middle
  have valid : valid_addr ip := by
    rintro rfl
    exact outside rfl
  have word : (ntohl (htonl (UInt32.ofNat len))).toNat = len := by
    rw [ntohl_htonl]
    exact UInt32.toNat_ofNat_of_lt' (by rw [UInt32.size]; omega)
  have length : valid_addr (htonl (UInt32.ofNat len)) := by
    intro none
    rw [none, show (ntohl INADDR_NONE).toNat = 4294967295 by decide] at word
    omega
  refine ⟨after, ?_, fun x => ?_⟩
  · rw [parse_block _ front ip len names valid positive most, block]
    exact rest
  · rw [more x, exact x, Between, word]
    refine or_congr_right ⟨fun added => added.2.2.1, fun inside => ?_⟩
    exact ⟨valid, length, inside, by omega⟩

theorem block_adds_iff (ip : UInt32) (len : Nat) (writes : Writes text (.block ip len)) :
    Adds text (.block ip len) list ↔ Harmless list (.block ip len) := by
  obtain ⟨after, parsed, found⟩ := block_parsed text list ip len writes
  constructor
  · rintro ⟨other, same, adds⟩ x least reached
    rw [parsed] at same
    cases same
    exact (adds x).mp ((found x).mpr (.inr ⟨least, reached⟩))
  · intro harmless
    refine ⟨after, parsed, fun x => ?_⟩
    rw [found x]
    constructor
    · rintro (expected | ⟨least, reached⟩)
      · exact expected
      · exact harmless x least reached
    · exact .inl

/-- A line of any form adds what it denotes exactly when it is harmless. -/
theorem parse_add_falls_through (line : Line) (writes : Writes text line) :
    Adds text line list ↔ Harmless list line := by
  cases line with
  | host ip => exact host_adds_iff text list ip writes
  | block ip len => exact block_adds_iff text list ip len writes
  | range first last => exact range_adds_iff text list first last writes

end Lines

/-- An address is named by the text it is printed as. -/
theorem names_ntoa (ip : UInt32) : Names (addr_ntoa ip) ip where
  plain byte member := ⟨addr_ntoa_without ip 47 rfl (by decide) byte member,
    addr_ntoa_without ip 45 rfl (by decide) byte member,
    addr_ntoa_without ip 0 rfl (by decide) byte member⟩
  reads := by
    rw [addr_ntoa, inet_aton_dotted, inet_aton_dotted, inet_aton_dotted]
    change inet_aton 0 [_, _, _] _ = _
    rw [inet_aton_last, loadUint32_bytes]

/-- A network of 256 addresses. -/
theorem parse_add_falls_through_network :
    Adds (ascii "192.168.0.0/24") (.block 0xA8C0 24) .empty := by
  have text : ascii "192.168.0.0/24" = addr_ntoa 0xA8C0 ++ 47 :: natText 24 := by decide
  have writes : Writes (ascii "192.168.0.0/24") (.block 0xA8C0 24) :=
    ⟨⟨by decide, by decide, by decide⟩, addr_ntoa 0xA8C0, names_ntoa _, text⟩
  rw [parse_add_falls_through _ _ _ writes]
  intro x least reached
  have far : (ntohl 0xA8C0).toNat = 3232235520 := by decide
  omega

/-- The line of one address lists the next one too. -/
theorem block_lists_more : Writes (ascii "0.0.0.5/32") (.block 0x05000000 32) ∧
    ¬ Denotes (.block 0x05000000 32) 0x06000000 ∧
    (∃ after, parse_add (64 * 1024 + 1) (ascii "0.0.0.5/32") .empty = some after ∧
      after.find 0x06000000 = true) ∧
    ¬ Adds (ascii "0.0.0.5/32") (.block 0x05000000 32) .empty := by
  have text : ascii "0.0.0.5/32" = addr_ntoa 0x05000000 ++ 47 :: natText 32 := by decide
  have writes : Writes (ascii "0.0.0.5/32") (.block 0x05000000 32) :=
    ⟨⟨by decide, by decide, by decide⟩, addr_ntoa 0x05000000, names_ntoa _, text⟩
  have other : ¬ Denotes (.block 0x05000000 32) 0x06000000 := by decide
  obtain ⟨after, parsed, found⟩ := block_parsed _ .empty 0x05000000 32 writes
  have listed : after.find 0x06000000 = true := (found _).mpr (.inr (by decide))
  refine ⟨writes, other, ⟨after, parsed, listed⟩, ?_⟩
  rintro ⟨same, done, adds⟩
  rw [parsed] at done
  cases done
  rcases (adds _).mp listed with old | ⟨-, denoted⟩
  · cases old
  · exact other denoted

end FPayNode.WhiteLists
