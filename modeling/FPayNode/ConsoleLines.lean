import FPayNode.FrameDelivery
import FPayNode.DottedAddress

/-!
`core/base/ConsoleServer.cpp` on a connection: commands in lines. `onData` takes
the first line of the buffer, and `Connection::onRead` calls it once for each
read. What executes a command is a parameter, and so is what sends its answer.
-/

namespace FPayNode.ConsoleLines

open CommandProgram DecimalText ByteStream DottedAddress BlockBuffers JsonFrames FrameDelivery

/-! `Split`. -/

def isDelim (delims : Bytes) (byte : UInt8) : Bool := byte ∈ delims

/-- The loop of `Split`, on what stands from `ei` on. A word is cut at its first
zero byte by `c_str`. -/
def splitLoop (delims : Bytes) : Nat → Bytes → List Bytes
  | 0, _ => []
  | fuel + 1, line =>
      let found := line.dropWhile (isDelim delims)
      if found = [] then []
      else
        (found.takeWhile fun byte => !isDelim delims byte).takeWhile (fun byte => byte ≠ 0) ::
          splitLoop delims fuel (found.dropWhile fun byte => !isDelim delims byte)

/-- Every round takes a byte, so there is one for each and one to stop. -/
def split (line delims : Bytes) : List Bytes := splitLoop delims (line.length + 1) line

def pieces (delims line : Bytes) : List Bytes :=
  (line.splitOnP (isDelim delims)).filter fun piece => piece ≠ []

theorem pieces_delim (delims : Bytes) (sep : UInt8) (line : Bytes)
    (delim : isDelim delims sep = true) : pieces delims (sep :: line) = pieces delims line := by
  rw [pieces, List.splitOnP_cons_eq_if_modifyHead, if_pos delim,
    List.filter_cons_of_neg (by decide)]
  rfl

theorem pieces_dropWhile (delims line : Bytes) :
    pieces delims (line.dropWhile (isDelim delims)) = pieces delims line := by
  induction line with
  | nil => rfl
  | cons byte line ih =>
      by_cases delim : isDelim delims byte = true
      · rw [List.dropWhile_cons_of_pos delim, pieces_delim delims byte line delim, ih]
      · rw [List.dropWhile_cons_of_neg delim]

theorem pieces_word (delims word rest : Bytes) (nonempty : word ≠ [])
    (plain : ∀ byte ∈ word, isDelim delims byte = false)
    (stops : ∀ sep ∈ rest.head?, isDelim delims sep = true) :
    pieces delims (word ++ rest) = word :: pieces delims rest := by
  cases rest with
  | nil =>
      rw [List.append_nil, pieces, List.splitOnP_eq_singleton plain, List.filter_cons,
        if_pos (decide_eq_true nonempty)]
      rfl
  | cons sep after =>
      have delim := stops sep rfl
      rw [pieces_delim delims sep after delim, pieces,
        List.splitOnP_append_cons_of_forall_mem plain sep delim, List.filter_cons,
        if_pos (decide_eq_true nonempty)]
      rfl

/-- The words are the pieces, each one up to its first zero byte. -/
theorem splitLoop_words (delims : Bytes) (fuel : Nat) (line : Bytes) (enough : line.length < fuel) :
    splitLoop delims fuel line =
      (pieces delims line).map fun piece => piece.takeWhile fun byte => byte ≠ 0 := by
  induction fuel generalizing line with
  | zero => omega
  | succ fuel ih =>
      have shorter := (List.dropWhile_sublist (isDelim delims) (l := line)).length_le
      rw [← pieces_dropWhile, splitLoop]
      by_cases none : line.dropWhile (isDelim delims) = []
      · rw [if_pos none, none]
        rfl
      · have first := List.head_dropWhile_not (isDelim delims) none
        have parts := List.takeWhile_append_dropWhile (p := fun byte => !isDelim delims byte)
          (l := line.dropWhile (isDelim delims))
        have size := congrArg List.length parts
        rw [List.length_append] at size
        have nonempty : (line.dropWhile (isDelim delims)).takeWhile
            (fun byte => !isDelim delims byte) ≠ [] := by
          rw [← List.cons_head_tail none, List.takeWhile_cons, first]
          exact List.cons_ne_nil _ _
        have positive := List.length_pos_of_ne_nil nonempty
        have plain : ∀ byte ∈ (line.dropWhile (isDelim delims)).takeWhile
            (fun byte => !isDelim delims byte), isDelim delims byte = false := by
          intro byte member
          have word := List.mem_takeWhile_imp member
          rwa [Bool.not_eq_true'] at word
        have stops : ∀ sep ∈ ((line.dropWhile (isDelim delims)).dropWhile
            fun byte => !isDelim delims byte).head?, isDelim delims sep = true := by
          intro sep member
          have ends := List.head?_dropWhile_not (fun byte => !isDelim delims byte)
            (line.dropWhile (isDelim delims))
          rw [member] at ends
          simpa using ends
        have words := pieces_word delims _ _ nonempty plain stops
        rw [if_neg none, ih _ (by omega), ← List.map_cons, ← words, parts]

theorem split_words (delims line : Bytes) : split line delims =
    (pieces delims line).map fun piece => piece.takeWhile fun byte => byte ≠ 0 :=
  splitLoop_words delims _ line (Nat.lt_succ_self _)

/-! The server. -/

/-- A command gets its words, and writes its answer or leaves by an exception. -/
abbrev OnCommand (World : Type) := World → List Bytes → Except Exn Bytes × World

structure ConsoleServer (World : Type) where
  m_mapHandlers : List (Bytes × OnCommand World)
  sendBin : World → Bytes → Except Exn Unit × World

/-- How `onData` was left, and what it passed to `DispatchCommand`. -/
structure Handled (World : Type) where
  ended : Except Exn Int32
  world : World
  dispatched : List (List Bytes)

/-- The connection is open until its manager erases it. -/
structure Connection (World : Type) where
  _input : InputBuffer
  isOpen : Bool
  peerIp : UInt32
  world : World
  dispatched : List (List Bytes)

section Server
variable {World : Type} (server : ConsoleServer World)

def DispatchCommand (world : World) (vecArg : List Bytes) : Except Exn Unit × World :=
  let reply : Except Exn Bytes × World :=
    match vecArg with
    | [] => (.ok (ascii "-ERR command not support \r\n"), world)
    | name :: _ =>
        match server.m_mapHandlers.lookup name with
        | none => (.ok (ascii "-ERR command not support: " ++ name ++ ascii "\r\n"), world)
        | some handler => handler world vecArg
  match reply with
  | (.error exn, after) => (.error exn, after)
  | (.ok str, after) => server.sendBin after str

def localhost : UInt32 := aton_addr (ascii "127.0.0.1")

/-- The line in front of the newline at a place. -/
def strLine (pData : Bytes) (i : Nat) : Bytes :=
  if i > 0 ∧ pData[i - 1]? = some 13 then pData.take (i - 1) else pData.take i

def onData (world : World) (pData : Bytes) (uPeerIp : UInt32) : Handled World :=
  if uPeerIp ≠ localhost then ⟨.ok (-1), world, []⟩
  else
    match pData.findIdx? fun byte => byte = 10 with
    | none => ⟨.ok 0, world, []⟩
    | some i =>
        if (strLine pData i).length > 0 then
          let vecArg := split (strLine pData i) (ascii " ")
          match DispatchCommand server world vecArg with
          | (.error exn, after) => ⟨.error exn, after, [vecArg]⟩
          | (.ok (), after) => ⟨.ok (Int32.ofNat (i + 1)), after, [vecArg]⟩
        else ⟨.ok (Int32.ofNat (i + 1)), world, []⟩

def onRead (conn : Connection World) (recv : Bytes) : Connection World :=
  if conn.isOpen = false then conn
  else
    match conn._input.pump recv with
    | none => { conn with isOpen := false }
    | some input =>
        let handled := onData server conn.world input.content conn.peerIp
        let after : Connection World :=
          { conn with
            _input := input
            world := handled.world
            dispatched := conn.dispatched ++ handled.dispatched }
        match handled.ended with
        | .ok ret =>
            if ret ≠ -1 then { after with _input := input.erase (toSize ret) }
            else { after with isOpen := false }
        | .error (.socketExn errno _) =>
            if errno = EAGAIN || errno = EINTR then after else { after with isOpen := false }
        | .error _ => { after with isOpen := false }

def Connection.fresh (world : World) : Connection World :=
  ⟨BlockBuffer.fresh, true, localhost, world, []⟩

def receiving : Machine Bytes Unit (Connection World) := fun recv conn =>
  ((), onRead server conn recv)

end Server

/-! Lines. -/

def completeLines (stream : Bytes) : List Bytes := (stream.splitOn 10).dropLast

def lineText (line : Bytes) : Bytes :=
  if line.getLast? = some 13 then line.dropLast else line

/-- What lines ask for: the words of each one that is not empty. -/
def commandsOf (lines : List Bytes) : List (List Bytes) :=
  ((lines.map lineText).filter fun text => text ≠ []).map fun text => split text (ascii " ")

def newlines (bytes : Bytes) : Nat := bytes.count 10

/-- The empty lines at the end. -/
def emptyTail (lines : List Bytes) : Nat :=
  (lines.reverse.takeWhile fun line => lineText line = []).length

/-- The last reads never bring more lines than there are reads, but for empty
lines at the end of the stream. -/
def OneLineEach (pieces : List Bytes) : Prop :=
  ∀ earlier, newlines (pieces.drop earlier).flatten ≤
    (pieces.drop earlier).length + emptyTail (completeLines pieces.flatten)

/-! Reading the first line. -/

theorem commandsOf_append (earlier later : List Bytes) :
    commandsOf (earlier ++ later) = commandsOf earlier ++ commandsOf later := by
  simp only [commandsOf, List.map_append, List.filter_append]

theorem completeLines_line (line rest : Bytes) (plain : 10 ∉ line) :
    completeLines (line ++ 10 :: rest) = line :: completeLines rest := by
  rw [completeLines, List.splitOn_append_cons_self_of_not_mem plain,
    List.dropLast_cons_of_ne_nil (List.splitOn_ne_nil 10 rest)]
  rfl

theorem completeLines_length (stream : Bytes) :
    (completeLines stream).length = newlines stream := by
  have pieces : (stream.splitOn 10).length = newlines stream + 1 := by
    induction stream with
    | nil => rfl
    | cons byte stream ih =>
        rw [List.splitOn_cons_eq_if_modifyHead, newlines, List.count_cons]
        split
        · rw [List.length_cons, ih]
          rfl
        · rw [List.length_modifyHead, ih]
          rfl
  rw [completeLines, List.length_dropLast, pieces, Nat.add_sub_cancel]

theorem strLine_text (line rest : Bytes) :
    strLine (line ++ 10 :: rest) line.length = lineText line := by
  cases line using List.reverseRecOn with
  | nil => rfl
  | append_singleton front last =>
      have place : (front ++ [last]).length - 1 = front.length := by simp
      have positive : (front ++ [last]).length > 0 := by simp
      have before : (front ++ [last] ++ 10 :: rest)[front.length]? = some last := by
        rw [List.append_assoc, List.getElem?_append_right (Nat.le_refl _), Nat.sub_self]
        rfl
      rw [strLine, place, before, lineText, List.getLast?_concat, List.dropLast_concat,
        List.take_left, List.append_assoc, List.take_left]
      simp only [positive, true_and]

section Server
variable {World : Type} (server : ConsoleServer World)

theorem onData_none (world : World) (pData : Bytes) (unfinished : 10 ∉ pData) :
    onData server world pData localhost = ⟨.ok (Int32.ofNat 0), world, []⟩ := by
  have absent : pData.findIdx? (fun byte => byte = 10) = none := by
    rw [List.findIdx?_eq_none_iff]
    rintro byte member
    exact decide_eq_false fun same => unfinished (same ▸ member)
  rw [onData, if_neg (not_not_intro rfl), absent]
  rfl

theorem onData_line (world : World) (line rest : Bytes) (plain : 10 ∉ line) :
    (onData server world (line ++ 10 :: rest) localhost).dispatched = commandsOf [line] ∧
      ((onData server world (line ++ 10 :: rest) localhost).ended =
          .ok (Int32.ofNat (line.length + 1)) ∨
        ∃ exn, (onData server world (line ++ 10 :: rest) localhost).ended = .error exn) := by
  have found : (line ++ 10 :: rest).findIdx? (fun byte => byte = 10) = some line.length := by
    have absent : line.findIdx? (fun byte => byte = 10) = none := by
      rw [List.findIdx?_eq_none_iff]
      rintro byte member
      exact decide_eq_false fun same => plain (same ▸ member)
    rw [List.findIdx?_append, absent, List.findIdx?_cons, if_pos (decide_eq_true rfl)]
    simp
  rw [onData, if_neg (not_not_intro rfl), found]
  simp only [strLine_text]
  by_cases empty : lineText line = []
  · have none : commandsOf [line] = [] := by
      simp [commandsOf, empty]
    rw [if_neg (by rw [empty]; decide), none]
    exact ⟨rfl, .inl rfl⟩
  · have one : commandsOf [line] = [split (lineText line) (ascii " ")] := by
      simp [commandsOf, empty]
    rw [if_pos (List.length_pos_of_ne_nil empty), one]
    rcases DispatchCommand server world (split (lineText line) (ascii " ")) with ⟨answer, after⟩
    cases answer with
    | error exn => exact ⟨rfl, .inr ⟨exn, rfl⟩⟩
    | ok done => exact ⟨rfl, .inl rfl⟩

/-! One read. -/

/-- The read delivers its bytes: the connection is still there, and `recv` got
some bytes and no more than it asked for. -/
def Delivers (conn : Connection World) (recv : Bytes) : Prop :=
  conn.isOpen = true ∧ recv ≠ [] ∧ recv.length ≤ conn._input.prepared.freespace

/-- A connection against the stream it has received: the lines it is done with
and what stands in the buffer. -/
structure Behind (stream : Bytes) (done : List Bytes) (rest : Bytes)
    (conn : Connection World) : Prop where
  peer : conn.peerIp = localhost
  lines : ∀ more, completeLines (stream ++ more) = done ++ completeLines (rest ++ more)
  dispatched : conn.dispatched = commandsOf done
  content : conn.isOpen = true → conn._input.content = rest

theorem behind_fresh (world : World) : Behind [] [] [] (Connection.fresh world) where
  peer := by simp only [Connection.fresh]
  lines _ := rfl
  dispatched := rfl
  content _ := rfl

theorem behind_kept (stream : Bytes) (done : List Bytes) (rest recv : Bytes)
    (conn : Connection World) (behind : Behind stream done rest conn)
    (delivers : Delivers conn recv) (unfinished : 10 ∉ rest ++ recv) :
    Behind (stream ++ recv) done (rest ++ recv) (onRead server conn recv) := by
  obtain ⟨opened, received, within⟩ := delivers
  obtain ⟨input, pumped, content⟩ := BlockBuffer.pump_some conn._input recv received within
  rw [behind.content opened] at content
  have handled := onData_none server conn.world input.content (content ▸ unfinished)
  rw [← behind.peer] at handled
  obtain ⟨proper, size⟩ := offset_returned 0 (Nat.zero_le _)
  have stays : ¬ conn.isOpen = false := by simp only [opened, Bool.true_eq_false, not_false_eq_true]
  rw [onRead, if_neg stays, pumped]
  simp only [handled, if_pos proper]
  refine ⟨behind.peer, fun more => ?_, ?_, fun _ => ?_⟩
  · rw [List.append_assoc, List.append_assoc]
    exact behind.lines (recv ++ more)
  · rw [List.append_nil]
    exact behind.dispatched
  · rw [BlockBuffer.erase_content, size, List.drop_zero, content]

theorem behind_line (stream : Bytes) (done : List Bytes) (rest recv line left : Bytes)
    (conn : Connection World) (behind : Behind stream done rest conn)
    (delivers : Delivers conn recv) (plain : 10 ∉ line)
    (first : rest ++ recv = line ++ 10 :: left) :
    Behind (stream ++ recv) (done ++ [line]) left (onRead server conn recv) := by
  obtain ⟨opened, received, within⟩ := delivers
  obtain ⟨input, pumped, content⟩ := BlockBuffer.pump_some conn._input recv received within
  rw [behind.content opened, first] at content
  obtain ⟨dispatched, ended⟩ := onData_line server conn.world line left plain
  rw [← content, ← behind.peer] at dispatched ended
  have small : line.length + 1 ≤ inputLimit := by
    have bound := input_length input
    rw [content, List.length_append, List.length_cons] at bound
    omega
  obtain ⟨proper, size⟩ := offset_returned (line.length + 1) small
  have lines : ∀ more, completeLines (stream ++ recv ++ more) =
      done ++ [line] ++ completeLines (left ++ more) := by
    intro more
    rw [List.append_assoc, behind.lines (recv ++ more), ← List.append_assoc rest, first,
      List.append_assoc line, List.cons_append, completeLines_line line _ plain,
      List.append_assoc done]
    rfl
  have reads : conn.dispatched ++ commandsOf [line] = commandsOf (done ++ [line]) := by
    rw [commandsOf_append, behind.dispatched]
  have stays : ¬ conn.isOpen = false := by simp only [opened, Bool.true_eq_false, not_false_eq_true]
  rw [onRead, if_neg stays, pumped]
  rcases ended with returned | ⟨exn, threw⟩
  · simp only [returned, if_pos proper, dispatched]
    refine ⟨behind.peer, lines, reads, fun _ => ?_⟩
    rw [BlockBuffer.erase_content, size, content, ← List.drop_drop, List.drop_left]
    rfl
  · -- The line has been dispatched; whatever was thrown closes the connection.
    simp only [threw, dispatched]
    cases exn with
    | socketExn errno raised =>
        have fatal : (decide (errno = EAGAIN) || decide (errno = EINTR)) = false := by
          simp only [isIgnoreError, Bool.or_eq_false_iff] at raised
          simp only [raised.1.1, raised.1.2, Bool.or_self]
        simp only [fatal, Bool.false_eq_true, ↓reduceIte]
        exact ⟨behind.peer, lines, reads, fun opened => absurd opened Bool.false_ne_true⟩
    | readStreamExn | cerealException | otherException =>
        exact ⟨behind.peer, lines, reads, fun opened => absurd opened Bool.false_ne_true⟩

/-! Runs. -/

/-- The complete lines that wait after each read. -/
def waiting : Nat → List Bytes → Nat
  | before, [] => before
  | before, recv :: pieces => waiting (before + newlines recv - 1) pieces

theorem newlines_append (left right : Bytes) :
    newlines (left ++ right) = newlines left + newlines right := List.count_append

theorem first_line (data : Bytes) :
    10 ∉ data ∨ ∃ line left, data = line ++ 10 :: left ∧ 10 ∉ line := by
  by_cases finished : 10 ∈ data
  · obtain ⟨line, left, parts, plain⟩ := List.eq_append_cons_of_mem finished
    exact .inr ⟨line, left, parts, plain⟩
  · exact .inl finished

theorem behind_onRead (stream : Bytes) (done : List Bytes) (rest recv : Bytes)
    (conn : Connection World) (behind : Behind stream done rest conn)
    (delivers : Delivers conn recv) : ∃ more left,
      Behind (stream ++ recv) more left (onRead server conn recv) ∧
        newlines left = newlines rest + newlines recv - 1 := by
  rw [← newlines_append]
  rcases first_line (rest ++ recv) with unfinished | ⟨line, left, parts, plain⟩
  · refine ⟨done, rest ++ recv, behind_kept server stream done rest recv conn behind delivers
      unfinished, ?_⟩
    rw [newlines, List.count_eq_zero_of_not_mem unfinished]
  · refine ⟨done ++ [line], left, behind_line server stream done rest recv line left conn behind
      delivers plain parts, ?_⟩
    rw [parts, newlines_append, newlines, newlines, newlines,
      List.count_eq_zero_of_not_mem plain, List.count_cons_self]
    omega

theorem behind_runAll (pieces : List Bytes) (stream : Bytes) (done : List Bytes) (rest : Bytes)
    (conn : Connection World) (behind : Behind stream done rest conn)
    (delivers : Throughout (receiving server) Program.perform Delivers conn pieces) :
    ∃ more left, Behind (stream ++ pieces.flatten) more left
        (runAll (receiving server) Program.perform conn pieces) ∧
      newlines left = waiting (newlines rest) pieces := by
  induction pieces generalizing stream done rest conn with
  | nil =>
      refine ⟨done, rest, ?_, rfl⟩
      rw [List.flatten_nil, List.append_nil]
      exact behind
  | cons recv pieces ih =>
      obtain ⟨first, later⟩ := delivers
      obtain ⟨more, left, next, count⟩ := behind_onRead server stream done rest recv conn behind
        first
      rw [List.flatten_cons, ← List.append_assoc, waiting, ← count]
      exact ih _ more left _ next later

end Server

/-! What waits at the end. -/

/-- What waits is bounded by the lines of every last part of the reads. -/
theorem waiting_le_iff (pieces : List Bytes) (before most : Nat) :
    waiting before pieces ≤ most ↔ before + newlines pieces.flatten ≤ pieces.length + most ∧
      ∀ earlier, newlines (pieces.drop earlier).flatten ≤ (pieces.drop earlier).length + most := by
  induction pieces generalizing before with
  | nil =>
      simp only [waiting, List.flatten_nil, List.length_nil, List.drop_nil, newlines,
        List.count_nil]
      exact ⟨fun small => ⟨by omega, fun _ => Nat.zero_le _⟩, fun both => by omega⟩
  | cons recv pieces ih =>
      rw [waiting, ih, List.flatten_cons, newlines_append, List.length_cons]
      constructor
      · rintro ⟨all, parts⟩
        have whole := parts 0
        rw [List.drop_zero] at whole
        refine ⟨by omega, fun earlier => ?_⟩
        cases earlier with
        | zero =>
            rw [List.drop_zero, List.flatten_cons, newlines_append, List.length_cons]
            omega
        | succ earlier => exact parts earlier
      · rintro ⟨all, parts⟩
        have rest := parts 1
        rw [List.drop_succ_cons, List.drop_zero] at rest
        exact ⟨by omega, fun earlier => parts (earlier + 1)⟩

/-- Lines ask for nothing exactly when they are all empty. -/
theorem commandsOf_nil_iff (lines : List Bytes) :
    commandsOf lines = [] ↔ ∀ line ∈ lines, lineText line = [] := by
  simp [commandsOf, List.filter_eq_nil_iff]

/-- The last lines are empty exactly when there are no more of them than empty
lines at the end. -/
theorem commandsOf_last_iff (done last : List Bytes) :
    commandsOf last = [] ↔ last.length ≤ emptyTail (done ++ last) := by
  rw [commandsOf_nil_iff, emptyTail, List.reverse_append]
  constructor
  · intro empty
    rw [List.takeWhile_append_of_pos fun line member =>
      decide_eq_true (empty line (List.mem_reverse.mp member)), List.length_append,
      List.length_reverse]
    exact Nat.le_add_right _ _
  · intro long line member
    have front := List.prefix_of_prefix_length_le (List.prefix_append last.reverse done.reverse)
      (List.takeWhile_prefix fun line => decide (lineText line = [])) (by
        rw [List.length_reverse]
        exact long)
    have inside := front.subset (List.mem_reverse.mpr member)
    have empty := List.mem_takeWhile_imp inside
    exact of_decide_eq_true empty

/-- The commands of a stream are dispatched, each once and in order. -/
def Dispatched {World : Type} (pieces : List Bytes) (conn : Connection World) : Prop :=
  conn.dispatched = commandsOf (completeLines pieces.flatten)

/-- Once all reads have delivered their bytes, the commands of the stream have
been dispatched exactly when no last reads brought more lines than one each. -/
theorem commands_dispatched_iff {World : Type} (server : ConsoleServer World) (world : World)
    (pieces : List Bytes) (delivers : Throughout (receiving server) Program.perform Delivers
      (Connection.fresh world) pieces) :
    Dispatched pieces (runAll (receiving server) Program.perform (Connection.fresh world) pieces) ↔
      OneLineEach pieces := by
  obtain ⟨done, left, behind, count⟩ := behind_runAll server pieces [] [] []
    (Connection.fresh world) (behind_fresh world) delivers
  have lines := behind.lines []
  rw [List.append_nil, List.append_nil, List.nil_append] at lines
  have whole : OneLineEach pieces → 0 + newlines pieces.flatten ≤
      pieces.length + emptyTail (completeLines pieces.flatten) := fun each => by
    have first := each 0
    rw [List.drop_zero] at first
    omega
  calc
    _ ↔ commandsOf (completeLines left) = [] := by
      rw [Dispatched, behind.dispatched, lines, commandsOf_append]
      exact List.self_eq_append_right
    _ ↔ newlines left ≤ emptyTail (completeLines pieces.flatten) := by
      rw [commandsOf_last_iff done, ← lines, completeLines_length]
    _ ↔ waiting 0 pieces ≤ emptyTail (completeLines pieces.flatten) := by
      rw [count]
      rfl
    _ ↔ OneLineEach pieces := by
      rw [waiting_le_iff]
      exact ⟨fun both => both.2, fun each => ⟨whole each, each⟩⟩

/-- No command is registered, and every answer is sent. -/
def quiet : ConsoleServer Unit := ⟨[], fun world _ => (.ok (), world)⟩

def halves : List Bytes := [ascii "he", ascii "lp me\r\n"]

theorem commands_dispatched_iff_halves :
    commandsOf (completeLines halves.flatten) = [[ascii "help", ascii "me"]] ∧
      Dispatched halves (runAll (receiving quiet) Program.perform (Connection.fresh ()) halves) := by
  have delivers : Throughout (receiving quiet) Program.perform Delivers
      (Connection.fresh ()) halves := by
    refine ⟨⟨rfl, ?_⟩, ⟨?_, ?_⟩, trivial⟩
    all_goals decide +kernel
  refine ⟨by decide +kernel, (commands_dispatched_iff quiet () halves delivers).mpr ?_⟩
  intro earlier
  match earlier with
  | 0 => decide +kernel
  | 1 => decide +kernel
  | more + 2 =>
      have nothing : halves.drop (more + 2) = [] := by simp [halves]
      rw [nothing]
      exact Nat.zero_le _

/-- Two commands in one read: the second one stays in the buffer. -/
def together : List Bytes := [ascii "help\nhelp\n"]

theorem second_command_waits :
    Throughout (receiving quiet) Program.perform Delivers (Connection.fresh ()) together ∧
      commandsOf (completeLines together.flatten) = [[ascii "help"], [ascii "help"]] ∧
      (runAll (receiving quiet) Program.perform (Connection.fresh ()) together).dispatched =
        [[ascii "help"]] ∧
      ¬ Dispatched together
        (runAll (receiving quiet) Program.perform (Connection.fresh ()) together) := by
  have commands : commandsOf (completeLines together.flatten) =
      [[ascii "help"], [ascii "help"]] := by decide +kernel
  have first : (runAll (receiving quiet) Program.perform (Connection.fresh ()) together).dispatched =
      [[ascii "help"]] := by decide +kernel
  refine ⟨⟨⟨rfl, ?_⟩, trivial⟩, commands, first, ?_⟩
  · decide +kernel
  · rw [Dispatched, first, commands]
    decide

end FPayNode.ConsoleLines
