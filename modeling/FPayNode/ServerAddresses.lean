import FPayNode.RoutedConnections

/-!
How `DirectWriter::sendTo` reads an address. The test for a colon is
`pos > 0`, which `npos` passes, and the port is what `std::stoi` makes of the
text, which throws where it finds no `int`.
-/

namespace FPayNode.ServerAddresses

open CommandProgram DecimalText ByteStream DottedAddress SenderFrames OutputStream RoutedConnections
open BuilderLock (stoi portText sendToThrows)

/-- The host and the port of an address, as `sendTo` takes them. -/
def addressOf (ipport : Bytes) : Except Exn (Bytes × Int) :=
  match ipport.findIdx? fun byte => byte = 58 with
  | some 0 => .ok ([], 0)
  | some pos =>
      match stoi (ipport.drop (pos + 1)) with
      | none => .error .otherException
      | some port => .ok (ipport.take pos, port)
  | none =>
      match stoi ipport with
      | none => .error .otherException
      | some port => .ok (ipport, port)

/-- `sendTo` with its log: the flag says whether it logged an error. -/
def sendToLogged (ipport : Bytes) (outgoing : Outgoing) (connect : Connect) (kernel : Kernel)
    (writer : DirectWriter) : (Except Exn (Option Bool) × Bool) × DirectWriter :=
  if ipport.isEmpty then ((.ok none, false), writer)
  else
    match addressOf ipport with
    | .error exn => ((.error exn, false), writer)
    | .ok (ip, port) =>
        if port ≤ 0 ∨ port > 65535 ∨ ip.isEmpty then ((.ok none, true), writer)
        else
          let serverId := genSId (aton_addr ip) (UInt16.ofNat port.toNat)
          let (result, writer) := writer.route serverId outgoing connect kernel
          ((result.map some, false), writer)

/-- The same call without the log. -/
theorem sendToLogged_sendTo (ipport : Bytes) (outgoing : Outgoing) (connect : Connect)
    (kernel : Kernel) (writer : DirectWriter) :
    writer.sendTo ipport outgoing connect kernel =
      ((sendToLogged ipport outgoing connect kernel writer).1.1,
        (sendToLogged ipport outgoing connect kernel writer).2) := by
  by_cases empty : ipport = []
  · simp [DirectWriter.sendTo, sendToLogged, serverOf, portText, empty]
  · simp only [DirectWriter.sendTo, sendToLogged, serverOf, portText, addressOf,
      List.isEmpty_iff, empty, ↓reduceIte]
    cases colon : ipport.findIdx? (fun byte => decide (byte = 58)) with
    | none =>
        simp only [Option.getD_none, List.take_length]
        cases stoi ipport with
        | none => rfl
        | some port =>
            by_cases refused : port ≤ 0 ∨ port > 65535 ∨ ipport = []
            · simp only [refused, ↓reduceIte]
            · simp only [refused, ↓reduceIte]
    | some pos =>
        cases pos with
        | zero => simp
        | succ pos =>
            simp only [Option.getD_some]
            cases stoi (ipport.drop (pos + 1 + 1)) with
            | none => rfl
            | some port =>
                by_cases refused : port ≤ 0 ∨ port > 65535 ∨ ipport.take (pos + 1) = []
                · simp only [refused, ↓reduceIte]
                · simp only [refused, ↓reduceIte]

/-! Addresses. -/

/-- The number that a text of digits spells. -/
def digitsValue (digits : Bytes) : Nat :=
  digits.foldl (fun value digit => value * 10 + (digit.toNat - 48)) 0

/-- A host, a colon and a decimal port. -/
structure HostPort (ipport host : Bytes) (port : UInt16) : Prop where
  spelled : ∃ digits, ipport = host ++ 58 :: digits ∧ digits ≠ [] ∧
    (∀ digit ∈ digits, isDigit digit = true) ∧ digitsValue digits = port.toNat
  named : host ≠ []
  plain : 58 ∉ host
  positive : port ≠ 0

/-- Texts that are refused: nothing is in front of the first colon, or the number
that `stoi` finds behind it, or in the whole text when there is none, is no
port. -/
def Refused (ipport : Bytes) : Prop :=
  (∃ rest, ipport = 58 :: rest) ∨
  (∃ host text n, host ≠ [] ∧ 58 ∉ host ∧ ipport = host ++ 58 :: text ∧ stoi text = some n ∧
    (n ≤ 0 ∨ 65535 < n)) ∨
  (58 ∉ ipport ∧ ∃ n, stoi ipport = some n ∧ (n ≤ 0 ∨ 65535 < n))

/-- What is asked of an address: a host and a port are routed to, and anything
else is logged and left. -/
structure ReadsAddress (ipport : Bytes) : Prop where
  routes : ∀ host port, HostPort ipport host port →
    getAddressFromSId (genSId (aton_addr host) port) = (aton_addr host, port) ∧
    ∀ outgoing connect kernel (writer : DirectWriter),
      sendToLogged ipport outgoing connect kernel writer =
        (((writer.route (genSId (aton_addr host) port) outgoing connect kernel).1.map some, false),
          (writer.route (genSId (aton_addr host) port) outgoing connect kernel).2)
  refuses : (∀ host port, ¬ HostPort ipport host port) →
    ∀ outgoing connect kernel (writer : DirectWriter),
      sendToLogged ipport outgoing connect kernel writer = ((.ok none, true), writer)

/-! Reading. -/

theorem findIdx_colon (host rest : Bytes) (plain : 58 ∉ host) :
    (host ++ 58 :: rest).findIdx? (fun byte => byte = 58) = some host.length := by
  induction host with
  | nil => simp [List.findIdx?_cons]
  | cons byte host ih =>
      have other : byte ≠ 58 := fun same => plain (same ▸ List.mem_cons_self)
      have tail := ih fun member => plain (List.mem_cons_of_mem _ member)
      simp [List.findIdx?_cons, other, tail]

theorem findIdx_none (text : Bytes) (absent : 58 ∉ text) :
    text.findIdx? (fun byte => byte = 58) = none := by
  rw [List.findIdx?_eq_none_iff]
  intro byte member
  simp only [decide_eq_false_iff_not]
  rintro rfl
  exact absent member

theorem first_colon (host text front rest : Bytes) (plain : 58 ∉ host) (first : 58 ∉ front)
    (same : host ++ 58 :: text = front ++ 58 :: rest) : host = front ∧ text = rest := by
  have position := findIdx_colon host text plain
  rw [same, findIdx_colon front rest first] at position
  obtain ⟨left, right⟩ := List.append_inj same (Option.some.inj position).symm
  exact ⟨left, (List.cons.inj right).2⟩

/-- A text is cut at its first colon. -/
theorem colon_cases (text : Bytes) :
    58 ∉ text ∨ ∃ host rest, 58 ∉ host ∧ text = host ++ 58 :: rest := by
  by_cases member : 58 ∈ text
  · obtain ⟨host, rest, whole, first⟩ := List.eq_append_cons_of_mem member
    exact .inr ⟨host, rest, first, whole⟩
  · exact .inl member

theorem readDigits_all (digits : Bytes) (all : ∀ digit ∈ digits, isDigit digit = true) (acc : Nat) :
    readDigits acc digits =
      (digits.foldl (fun value digit => value * 10 + (digit.toNat - 48)) acc, []) := by
  induction digits generalizing acc with
  | nil => rfl
  | cons digit rest ih =>
      simp only [readDigits, all digit List.mem_cons_self, ↓reduceIte, List.foldl_cons]
      exact ih (fun other member => all other (List.mem_cons_of_mem _ member)) _

theorem stoi_digits (digits : Bytes) (nonempty : digits ≠ [])
    (all : ∀ digit ∈ digits, isDigit digit = true) (small : digitsValue digits < 65536) :
    stoi digits = some (digitsValue digits : Int) := by
  obtain ⟨first, rest, rfl⟩ := List.exists_cons_of_ne_nil nonempty
  have head := all first List.mem_cons_self
  have front : (first :: rest).dropWhile isSpace = first :: rest := by
    simp [List.dropWhile, isDigit_not_isSpace first head]
  obtain ⟨notMinus, notPlus⟩ := digit_not_sign first head
  have read : (readDigits 0 (first :: rest)).1 = digitsValue (first :: rest) := by
    rw [readDigits_all _ all]
    rfl
  unfold stoi
  rw [front]
  dsimp only
  rw [if_neg notMinus, if_neg notPlus, if_pos head, read, Option.bind_some]
  exact if_pos ⟨by omega, by omega⟩

theorem genSId_address (ip : UInt32) (port : UInt16) :
    getAddressFromSId (genSId ip port) = (ip, port) := by
  simp only [getAddressFromSId, genSId, Prod.mk.injEq]
  constructor
  · apply UInt32.toBitVec_inj.mp
    ext i h
    have above := BitVec.getLsbD_of_ge port.toBitVec (32 + i) (by omega)
    simp [above, show 32 + i < 64 by omega, show i < 64 by omega, BitVec.getLsbD_eq_getElem h]
  · apply UInt16.toBitVec_inj.mp
    ext i h
    simp

/-- A host and a port are cut at the colon, and the port is a number. -/
theorem hostPort_cut (ipport host : Bytes) (port : UInt16) (address : HostPort ipport host port) :
    ∃ pos, ipport.findIdx? (fun byte => byte = 58) = some (pos + 1) ∧
      ipport.take (pos + 1) = host ∧
      stoi (ipport.drop (pos + 1 + 1)) = some (port.toNat : Int) := by
  obtain ⟨digits, rfl, nonempty, all, value⟩ := address.spelled
  obtain ⟨pos, length⟩ : ∃ pos, host.length = pos + 1 :=
    Nat.exists_eq_succ_of_ne_zero fun zero => address.named (List.length_eq_zero_iff.mp zero)
  have text : (host ++ 58 :: digits).drop (pos + 1 + 1) = digits := by
    rw [← length]
    simp
  refine ⟨pos, ?_, ?_, ?_⟩
  · rw [findIdx_colon host digits address.plain, length]
  · rw [← length, List.take_left]
  · rw [text, ← value]
    exact stoi_digits digits nonempty all (by rw [value]; exact port.toNat_lt)

/-- A host and a port are what `sendTo` takes them for. -/
theorem addressOf_hostPort (ipport host : Bytes) (port : UInt16)
    (address : HostPort ipport host port) : addressOf ipport = .ok (host, port.toNat) := by
  obtain ⟨pos, colon, front, number⟩ := hostPort_cut ipport host port address
  simp only [addressOf, colon, number, front]

theorem hostPort_nonempty (ipport host : Bytes) (port : UInt16)
    (address : HostPort ipport host port) : ipport ≠ [] := by
  obtain ⟨digits, rfl, -⟩ := address.spelled
  simp

/-- The port of such an address is converted. -/
theorem hostPort_sends (ipport host : Bytes) (port : UInt16)
    (address : HostPort ipport host port) : sendToThrows ipport = false := by
  obtain ⟨pos, colon, -, number⟩ := hostPort_cut ipport host port address
  simp [sendToThrows, portText, colon, number, hostPort_nonempty ipport host port address]

theorem hostPort_routes (ipport host : Bytes) (port : UInt16) (address : HostPort ipport host port)
    (outgoing : Outgoing) (connect : Connect) (kernel : Kernel) (writer : DirectWriter) :
    sendToLogged ipport outgoing connect kernel writer =
      (((writer.route (genSId (aton_addr host) port) outgoing connect kernel).1.map some, false),
        (writer.route (genSId (aton_addr host) port) outgoing connect kernel).2) := by
  have nonempty := hostPort_nonempty ipport host port address
  have small := port.toNat_lt
  have positive : port.toNat ≠ 0 := fun zero => address.positive (UInt16.toNat_inj.mp zero)
  have inside : ¬ ((port.toNat : Int) ≤ 0 ∨ (port.toNat : Int) > 65535 ∨ host = []) := by
    rintro (low | high | empty)
    · omega
    · omega
    · exact address.named empty
  simp only [sendToLogged, List.isEmpty_iff, nonempty, addressOf_hostPort ipport host port address,
    inside, ↓reduceIte, Int.toNat_natCast, UInt16.ofNat_toNat]

/-- The call logs an error and leaves everything as it is. -/
def Logs (ipport : Bytes) : Prop :=
  ∃ ip port, ipport ≠ [] ∧ addressOf ipport = .ok (ip, port) ∧
    (port ≤ 0 ∨ port > 65535 ∨ ip = [])

theorem logs_iff (ipport : Bytes) (outgoing : Outgoing) (connect : Connect) (kernel : Kernel)
    (writer : DirectWriter) :
    sendToLogged ipport outgoing connect kernel writer = ((.ok none, true), writer) ↔
      Logs ipport := by
  simp only [sendToLogged, Logs, List.isEmpty_iff]
  by_cases empty : ipport = []
  · simp [empty]
  · cases address : addressOf ipport with
    | error exn => simp [empty]
    | ok pair =>
        obtain ⟨ip, port⟩ := pair
        by_cases refused : port ≤ 0 ∨ port > 65535 ∨ ip = []
        · simp only [empty, refused, ↓reduceIte, true_iff]
          exact ⟨ip, port, empty, rfl, refused⟩
        · simp only [empty, refused, ↓reduceIte, Prod.mk.injEq, Bool.false_eq_true, and_false,
            false_and, false_iff]
          rintro ⟨_, _, -, same, is⟩
          cases same
          exact refused is

theorem logs_iff_refused (ipport : Bytes) : Logs ipport ↔ Refused ipport := by
  rcases colon_cases ipport with plain | ⟨host, rest, plain, rfl⟩
  · -- Without a colon the whole text is the host and the port.
    have other (rest : Bytes) : ipport ≠ 58 :: rest := by
      rintro rfl
      exact plain List.mem_cons_self
    have others (host rest : Bytes) : ipport ≠ host ++ 58 :: rest := by
      rintro rfl
      exact plain (List.mem_append_right _ List.mem_cons_self)
    simp only [Logs, Refused, addressOf, findIdx_none ipport plain, other, others]
    cases number : stoi ipport with
    | none => simp
    | some port =>
        have nonempty : ipport ≠ [] := by
          rintro rfl
          cases number
        simp [nonempty, plain]
  · have nonempty : host ++ 58 :: rest ≠ [] := by simp
    have member : 58 ∈ host ++ 58 :: rest := List.mem_append_right _ List.mem_cons_self
    simp only [Logs, Refused, addressOf, findIdx_colon host rest plain]
    cases host with
    | nil => simp
    | cons byte host =>
        have text : (byte :: host ++ 58 :: rest).drop (host.length + 1 + 1) = rest := by simp
        have front : (byte :: host ++ 58 :: rest).take (host.length + 1) = byte :: host := by simp
        have notFirst : ¬ ∃ other, byte :: host ++ 58 :: rest = 58 :: other := by
          rintro ⟨other, same⟩
          cases same
          exact plain List.mem_cons_self
        simp only [List.length_cons, text, front, notFirst, false_or, member, not_true_eq_false,
          false_and, or_false]
        constructor
        · rintro ⟨ip, port, -, address, refused⟩
          cases number : stoi rest with
          | none => simp [number] at address
          | some n =>
              simp only [number, Except.ok.injEq, Prod.mk.injEq] at address
              obtain ⟨rfl, rfl⟩ := address
              refine ⟨byte :: host, rest, n, by simp, plain, rfl, number, ?_⟩
              exact (or_assoc.mpr refused).resolve_right (by simp)
        · rintro ⟨other, after, n, -, first, same, number, refused⟩
          obtain ⟨rfl, rfl⟩ := first_colon _ _ _ _ plain first same
          refine ⟨byte :: host, n, nonempty, by rw [number], ?_⟩
          exact refused.imp_right .inl

theorem not_reads (ipport : Bytes) (unspelled : ∀ host port, ¬ HostPort ipport host port)
    (accepted : ¬ Logs ipport) : ¬ ReadsAddress ipport := by
  intro reads
  exact accepted ((logs_iff ipport ⟨0, [], 0⟩ .refused (.fails 0) .fresh).mp
    (reads.refuses unspelled _ _ _ _))

/-- `sendTo` reads an address as it should, if and only if it is a host and a
port, or the text is refused. -/
theorem address_read_iff (ipport : Bytes) :
    ReadsAddress ipport ↔ (∃ host port, HostPort ipport host port) ∨ Refused ipport := by
  constructor
  · intro reads
    by_cases address : ∃ host port, HostPort ipport host port
    · exact .inl address
    · by_contra neither
      exact not_reads ipport (fun host port is => address ⟨host, port, is⟩)
        (fun logs => neither (.inr ((logs_iff_refused ipport).mp logs))) reads
  · intro condition
    refine ⟨fun host port address => ⟨genSId_address _ _,
      hostPort_routes ipport host port address⟩, fun unspelled outgoing connect kernel writer => ?_⟩
    rcases condition with ⟨host, port, address⟩ | refused
    · exact absurd address (unspelled host port)
    · exact (logs_iff ipport outgoing connect kernel writer).mpr
        ((logs_iff_refused ipport).mpr refused)

/-- A port that is no number throws, a text without a colon is routed to itself,
and so is a port with letters behind it. -/
theorem bad_addresses_read :
    (addressOf (ascii "a:b") = .error .otherException ∧ ¬ ReadsAddress (ascii "a:b")) ∧
    (addressOf (ascii "8080") = .ok (ascii "8080", 8080) ∧ ¬ ReadsAddress (ascii "8080")) ∧
    (addressOf (ascii "1.2.3.4:80x") = .ok (ascii "1.2.3.4", 80) ∧
      ¬ ReadsAddress (ascii "1.2.3.4:80x")) := by
  have letters : addressOf (ascii "a:b") = .error .otherException := rfl
  have bare : addressOf (ascii "8080") = .ok (ascii "8080", 8080) := rfl
  have trailing : addressOf (ascii "1.2.3.4:80x") = .ok (ascii "1.2.3.4", 80) := rfl
  refine ⟨⟨letters, not_reads _ ?_ ?_⟩, ⟨bare, not_reads _ ?_ ?_⟩, trailing, not_reads _ ?_ ?_⟩
  · intro host port address
    cases letters.symm.trans (addressOf_hostPort _ host port address)
  · rintro ⟨ip, port, -, read, -⟩
    cases letters.symm.trans read
  · rintro host port ⟨⟨digits, whole, -⟩, -, -⟩
    have colon : 58 ∈ ascii "8080" := whole ▸ List.mem_append_right _ List.mem_cons_self
    exact absurd colon (by decide)
  · rintro ⟨ip, port, -, read, refused⟩
    cases bare.symm.trans read
    revert refused
    decide
  · rintro host port ⟨⟨digits, whole, -, all, -⟩, -, plain⟩
    obtain ⟨-, rfl⟩ := first_colon (ascii "1.2.3.4") (ascii "80x") host digits (by decide) plain
      whole
    exact absurd (all 120 (by decide)) (by decide)
  · rintro ⟨ip, port, -, read, refused⟩
    cases trailing.symm.trans read
    revert refused
    decide

end FPayNode.ServerAddresses
