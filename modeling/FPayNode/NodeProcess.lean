import FPayNode.RequestJson

/-!
A node process with any number of connections that it has accepted. Each read
event delivers some bytes on one connection, and the requests that are whole by
then are handled one after another over the services that all connections share;
between two reads others may change the services. The log of a process says what
was handled, in which order and what became of the answer.
-/

namespace FPayNode.NodeProcess

open CommandProgram DecimalText ByteStream BlockBuffers UnitStream RedisServer RedisCache Messages
open NodeService JsonFrames FrameDelivery SenderFrames RequestDispatch NodeRequests
open BlockSync ChildNodes CerealJson RequestJson

/-- What `sendBin` does with an answer: the socket and the output buffer take it,
the socket fails, or the buffer has no room for what the socket has not taken. A
connection that was accepted is never disabled, since the manager that disables
connections is the writer. -/
inductive Sending where
  | taken
  | reset (errno : Int32) (raised : isIgnoreError errno = false)
  | overflowed (part : Nat)

/-- What the process finds in memory at its `n`-th request, how many blocks a
walk along the chain may read, and how sending the answer ends. -/
structure Surroundings where
  stale : Nat → Stale
  length : Nat → UInt64
  memory : Nat → Nat → Uninitialized
  reads : Nat → Nat
  sending : Nat → Sending

/-- What became of an answer. There is no frame when the handler gave none, or
when it could not be packed. -/
structure Answered where
  frame : Option Bytes
  sending : Sending

/-- The connection has taken all of it. -/
def Answered.whole : Answered → Bool
  | ⟨some _, .taken⟩ => true
  | _ => false

/-- What the connection has taken of it. -/
def Answered.output : Answered → Bytes
  | ⟨some frame, .taken⟩ => frame
  | ⟨some frame, .overflowed part⟩ => frame.take (min part (frame.length - 1))
  | _ => []

inductive Entry (Conn : Type) where
  | handled (conn : Conn) (request : Request) (outcome : Outcome) (answered : Answered)
  | elsewhere (change : Servers → Servers)

/-- `output` is what each connection has taken for sending, in order. -/
structure NodeWorld (Conn : Type) where
  servers : Servers
  output : Conn → Bytes
  log : List (Entry Conn)

structure Link where
  _input : InputBuffer
  isOpen : Bool

structure Process (Conn : Type) where
  world : NodeWorld Conn
  links : Conn → Link

inductive ProcessEvent (Conn : Type) where
  | recv (conn : Conn) (bytes : Bytes)
  | elsewhere (change : Servers → Servers)

def Process.fresh {Conn : Type} (servers : Servers) : Process Conn :=
  ⟨⟨servers, fun _ => [], []⟩, fun _ => ⟨BlockBuffer.fresh, true⟩⟩

section Node
variable {Conn : Type} [DecidableEq Conn]
variable (config : Config) (forms : Forms) (node : FPService) (throws : Bytes → Bool)
variable (around : Surroundings)

/-- The `n`-th request, run to its end. -/
def runHandler (n : Nat) (request : Request) (servers : Servers) : Outcome × Servers :=
  run (serve throws) (handle config forms node (around.memory n) (around.reads n) request) servers

/-- What becomes of the answer to the `n`-th request. -/
def answerTo (n : Nat) (outcome : Outcome) : Answered where
  frame :=
    match outcome with
    | some (.ok reply) => answer forms (around.length n) reply
    | _ => none
  sending := around.sending n

/-- How the handler is left. A call that is still in its loop handles nothing
behind it. -/
def verdictOf : Outcome → Answered → Verdict
  | none, _ => .returned (-1)
  | some _, ⟨none, _⟩ => .threw .otherException
  | some _, ⟨some _, .taken⟩ => .returned 0
  | some _, ⟨some _, .reset errno raised⟩ => .threw (.socketExn errno raised)
  | some _, ⟨some _, .overflowed _⟩ => .threw .otherException

/-- Whether what comes behind the request is handled. -/
def goesOn : Verdict → Bool
  | .threw _ => false
  | .returned ret => ret ≠ -1

/-- An entry's function. -/
def serveRequest (conn : Conn) (request : Request) (world : NodeWorld Conn) :
    NodeWorld Conn × Verdict :=
  let n := world.log.length
  let (outcome, servers) := runHandler config forms node throws around n request world.servers
  let answered := answerTo forms around n outcome
  ({ servers := servers
     output := Function.update world.output conn (world.output conn ++ answered.output)
     log := world.log ++ [.handled conn request outcome answered] },
    verdictOf outcome answered)

/-- The form map as `ServerContext::addEntry` registers it. -/
def nodeContext (conn : Conn) (n : Nat) : ServerContext Request (NodeWorld Conn × Verdict) where
  entries uri := (formHandle forms (around.memory n 0) uri).map fun parse =>
    ⟨parse, .fpt_vcc, true, fun _ request state =>
      serveRequest config forms node throws around conn request state.1⟩
  memory _ := around.stale n

/-- A handler that throws is left through the dispatch. -/
def nodeConsumer (conn : Conn) : Consumer (NodeWorld Conn) where
  stale world := around.stale world.log.length
  doRequest world req :=
    match requestDispatch (nodeContext config forms node throws around conn world.log.length) req
        ⟨(world, .returned 0), []⟩ with
    | .error exn => (.threw exn, world)
    | .ok serving => (serving.state.2, serving.state.1)

/-- A connection as its read event finds it. -/
def attached (process : Process Conn) (conn : Conn) : Connection (NodeWorld Conn) :=
  ⟨(process.links conn)._input, (process.links conn).isOpen, process.world, []⟩

def processing : Machine (ProcessEvent Conn) Unit (Process Conn)
  | .recv conn bytes, process =>
      let after := onRead (nodeConsumer config forms node throws around conn)
        (attached process conn) bytes
      ((), ⟨after.world, Function.update process.links conn ⟨after._input, after.isOpen⟩⟩)
  | .elsewhere change, process =>
      ((), { process with
        world := { process.world with
          servers := change process.world.servers
          log := process.world.log ++ [.elsewhere change] } })

/-- A read delivers something, and no more than there is room for. -/
def Receives (process : Process Conn) : ProcessEvent Conn → Prop
  | .recv conn bytes => Delivers (attached process conn) bytes
  | .elsewhere _ => True

end Node

/-! The log. -/

section Log
variable {Conn : Type} [DecidableEq Conn]

/-- The request that was handled on the connection, how its handler ended and
what became of the answer. -/
def Entry.on (conn : Conn) : Entry Conn → Option (Request × Outcome × Answered)
  | .handled other request outcome answered =>
      if other = conn then some (request, outcome, answered) else none
  | .elsewhere _ => none

def handledOn (conn : Conn) (log : List (Entry Conn)) : List (Request × Outcome × Answered) :=
  log.filterMap (Entry.on conn)

def requestsOn (conn : Conn) (log : List (Entry Conn)) : List Request :=
  (handledOn conn log).map fun entry => entry.1

def answersOn (conn : Conn) (log : List (Entry Conn)) : List Answered :=
  (handledOn conn log).map fun entry => entry.2.2

/-- What went out for the answers, one behind the other. -/
def outputOf (answers : List Answered) : Bytes := answers.flatMap Answered.output

theorem handledOn_append (conn : Conn) (log more : List (Entry Conn)) :
    handledOn conn (log ++ more) = handledOn conn log ++ handledOn conn more :=
  List.filterMap_append

def AllAnswered (answers : List Answered) : Prop := ∀ answer ∈ answers, answer.whole = true

/-- The last request is the one without a whole answer. -/
def LastUnanswered (answers : List Answered) : Prop :=
  ∃ earlier last, answers = earlier ++ [last] ∧ last.whole = false ∧ AllAnswered earlier

theorem allAnswered_nil : AllAnswered [] := fun _ member => absurd member List.not_mem_nil

theorem allAnswered_append (answers more : List Answered) :
    AllAnswered (answers ++ more) ↔ AllAnswered answers ∧ AllAnswered more := by
  simp only [AllAnswered, List.forall_mem_append]

theorem lastUnanswered_append (answers more : List Answered) (all : AllAnswered answers)
    (last : LastUnanswered more) : LastUnanswered (answers ++ more) := by
  obtain ⟨earlier, torn, rfl, unanswered, before⟩ := last
  exact ⟨answers ++ earlier, torn, (List.append_assoc _ _ _).symm, unanswered,
    (allAnswered_append _ _).mpr ⟨all, before⟩⟩

variable (config : Config) (forms : Forms) (node : FPService) (throws : Bytes → Bool)
variable (around : Surroundings)

/-- Running the handlers of a log one after another, from some services on, gives
the outcomes and answers that it notes. -/
inductive Replays (start : Servers) : List (Entry Conn) → Servers → Prop where
  | start : Replays start [] start
  | handled {log : List (Entry Conn)} {servers : Servers} (conn : Conn) (request : Request) :
      Replays start log servers →
      Replays start
        (log ++ [.handled conn request
          (runHandler config forms node throws around log.length request servers).1
          (answerTo forms around log.length
            (runHandler config forms node throws around log.length request servers).1)])
        (runHandler config forms node throws around log.length request servers).2
  | elsewhere {log : List (Entry Conn)} {servers : Servers} (change : Servers → Servers) :
      Replays start log servers → Replays start (log ++ [.elsewhere change]) (change servers)

/-- The world agrees with its log. -/
structure Sound (start : Servers) (world : NodeWorld Conn) : Prop where
  replays : Replays config forms node throws around start world.log world.servers
  output : ∀ conn, world.output conn = outputOf (answersOn conn world.log)

/-! One request. -/

theorem serveRequest_log (conn : Conn) (request : Request) (world : NodeWorld Conn) :
    ∃ outcome, (serveRequest config forms node throws around conn request world).1.log =
        world.log ++
          [.handled conn request outcome (answerTo forms around world.log.length outcome)] ∧
      (serveRequest config forms node throws around conn request world).2 =
        verdictOf outcome (answerTo forms around world.log.length outcome) := ⟨_, rfl, rfl⟩

theorem verdictOf_whole (n : Nat) (outcome : Outcome) :
    goesOn (verdictOf outcome (answerTo forms around n outcome)) =
      (answerTo forms around n outcome).whole := by
  cases outcome with
  | none => rfl
  | some left =>
      cases answerTo forms around n (some left) with
      | mk frame sending =>
          cases frame with
          | none => rfl
          | some bytes => cases sending <;> rfl

theorem serveRequest_sound (start : Servers) (conn : Conn) (request : Request)
    (world : NodeWorld Conn) (sound : Sound config forms node throws around start world) :
    Sound config forms node throws around start
      (serveRequest config forms node throws around conn request world).1 := by
  refine ⟨.handled conn request sound.replays, fun other => ?_⟩
  simp only [serveRequest, answersOn, handledOn_append, List.map_append, outputOf,
    List.flatMap_append]
  by_cases same : other = conn
  · subst other
    rw [Function.update_self, sound.output conn]
    simp [handledOn, Entry.on, outputOf, answersOn]
  · rw [Function.update_of_ne same, sound.output other]
    simp [handledOn, Entry.on, outputOf, answersOn, Ne.symm same]

/-- What the form map makes of a frame: none when it has no uri or cereal throws,
and no request when the uri is not registered. -/
def readFrame (memory : Uninitialized) (frame : TaggedFrame) : Option (Option Request) :=
  match frame.bytes[8]? with
  | none => none
  | some uri =>
      match formHandle forms memory uri with
      | none => some none
      | some parse => (parse (frame.bytes.drop 9)).map some

def requestIn (frame : TaggedFrame) : Option Request := (readFrame forms ⟨0, 0⟩ frame).join

/-- The input buffer has room for the frame, and it is read without an exception. -/
def Accepted (frame : TaggedFrame) : Prop :=
  frame.bytes.length ≤ inputLimit ∧ (readFrame forms ⟨0, 0⟩ frame).isSome

instance (frame : TaggedFrame) : Decidable (Accepted forms frame) :=
  inferInstanceAs (Decidable (_ ∧ _))

theorem readFrame_steady (fills : FillsAll forms) (memory : Uninitialized) (frame : TaggedFrame) :
    readFrame forms memory frame = readFrame forms ⟨0, 0⟩ frame := by
  rw [readFrame, formHandle_steady forms fills memory ⟨0, 0⟩, readFrame]

/-- A frame as it is visited: the connection ends, it is skipped, or its request
is served. -/
theorem visit_node (fills : FillsAll forms) (conn : Conn) (world : NodeWorld Conn)
    (frame : TaggedFrame) :
    let visit := visitFrame (nodeConsumer config forms node throws around conn) world frame.bytes
    match readFrame forms ⟨0, 0⟩ frame with
    | none => visit.goesOn = false ∧ visit.world = world
    | some none => visit.goesOn = true ∧ visit.world = world
    | some (some request) =>
        visit.goesOn =
            goesOn (serveRequest config forms node throws around conn request world).2 ∧
          visit.world = (serveRequest config forms node throws around conn request world).1 := by
  intro visit
  rw [← readFrame_steady forms fills (around.memory world.log.length 0) frame]
  obtain ⟨bytes, complete, tagged⟩ := frame
  have proto := (getProtoType_tag (lengthWord bytes)).mp tagged
  have long := (frameSize_some bytes _ complete).1
  obtain ⟨b0, b1, b2, b3, b4, b5, b6, b7, rest, rfl⟩ := header_bytes bytes long
  cases rest with
  | nil =>
      have refused : visit = _ :=
        visitFrame_refused _ _ _ _ (popHeader_short _ _ proto b0 b1 b2 b3 b4 b5 b6 b7)
      rw [refused]
      exact ⟨rfl, rfl⟩
  | cons uri body =>
      have popped : visit = _ :=
        visitFrame_popped _ _ _ _ (popHeader_long _ _ proto b0 b1 b2 b3 b4 b5 b6 b7 uri body)
      rw [popped]
      simp only [nodeConsumer, requestDispatch, nodeContext, FormEntry.handlePacket, readFrame,
        List.getElem?_cons_succ, List.getElem?_cons_zero, List.drop_succ_cons, List.drop_zero]
      cases registered : formHandle forms (around.memory world.log.length 0) uri with
      | none => exact ⟨rfl, rfl⟩
      | some parse =>
          cases parsed : parse body with
          | none => simp [parsed]
          | some request =>
              simp only [Option.map_some, parsed, dispatchMessage, FormEntry.call,
                Bool.true_eq_false, ↓reduceIte]
              cases verdict :
                (serveRequest config forms node throws around conn request world).2 with
              | threw exn => exact ⟨rfl, rfl⟩
              | returned ret => exact ⟨rfl, rfl⟩

/-! The requests of one read. -/

/-- Why nothing is handled behind so many frames: the last request has no whole
answer, or the connection does not take the next frame. -/
def Ended (sent : List TaggedFrame) (count : Nat) (answers : List Answered) : Prop :=
  LastUnanswered answers ∨
    AllAnswered answers ∧ ∃ frame, sent[count]? = some frame ∧ ¬ Accepted forms frame

/-- How far the frames that are whole have been handled, and what changed. -/
structure Progress (conn : Conn) (sent : List TaggedFrame) (before after : NodeWorld Conn)
    (goesOn : Bool) (count : Nat) : Prop where
  sound : ∀ start, Sound config forms node throws around start before →
    Sound config forms node throws around start after
  apart : ∀ other, other ≠ conn → handledOn other after.log = handledOn other before.log
  alone : ∀ change, Entry.elsewhere change ∈ after.log → Entry.elsewhere change ∈ before.log
  within : count ≤ sent.length
  accepted : ∀ frame ∈ sent.take count, Accepted forms frame
  requests : requestsOn conn after.log =
    requestsOn conn before.log ++ (sent.take count).filterMap (requestIn forms)
  answers : ∃ more, answersOn conn after.log = answersOn conn before.log ++ more ∧
    (goesOn = true → AllAnswered more) ∧ (goesOn = false → Ended forms sent count more)

/-- One request: what it adds to the log, and whether the connection goes on. -/
theorem serveRequest_handled (conn : Conn) (request : Request) (world : NodeWorld Conn) :
    ∃ outcome answered, (∀ other, handledOn other
        (serveRequest config forms node throws around conn request world).1.log =
          handledOn other world.log ++
            if other = conn then [(request, outcome, answered)] else []) ∧
      (∀ change, Entry.elsewhere change ∈
          (serveRequest config forms node throws around conn request world).1.log →
        Entry.elsewhere change ∈ world.log) ∧
      goesOn (serveRequest config forms node throws around conn request world).2 =
        answered.whole := by
  obtain ⟨outcome, log, verdict⟩ :=
    serveRequest_log config forms node throws around conn request world
  refine ⟨outcome, answerTo forms around world.log.length outcome, fun other => ?_,
    fun change => ?_, ?_⟩
  · rw [log, handledOn_append]
    by_cases same : other = conn
    · simp [handledOn, Entry.on, same]
    · simp [handledOn, Entry.on, same, Ne.symm same]
  · simp [log]
  · rw [verdict]
    exact verdictOf_whole forms around world.log.length outcome

/-- A frame as it is visited: refused, skipped, answered, or the last one. -/
theorem visit_progress (fills : FillsAll forms) (conn : Conn) (world : NodeWorld Conn)
    (frame : TaggedFrame) (fits : frame.bytes.length ≤ inputLimit) :
    ∃ count, Progress config forms node throws around conn [frame] world
        (visitFrame (nodeConsumer config forms node throws around conn) world frame.bytes).world
        (visitFrame (nodeConsumer config forms node throws around conn) world frame.bytes).goesOn
        count ∧
      ((visitFrame (nodeConsumer config forms node throws around conn) world
        frame.bytes).goesOn = true → count = 1) := by
  have visited := visit_node config forms node throws around fills conn world frame
  generalize visitFrame (nodeConsumer config forms node throws around conn) world frame.bytes =
    visit at visited ⊢
  obtain ⟨output, goes, after⟩ := visit
  cases read : readFrame forms ⟨0, 0⟩ frame with
  | none =>
      rw [read] at visited
      obtain ⟨rfl, rfl⟩ := visited
      have refused : ¬ Accepted forms frame := fun accepted => by simp [Accepted, read] at accepted
      refine ⟨0, ?_, fun goes => absurd goes Bool.false_ne_true⟩
      exact
        { sound := fun _ sound => sound
          apart := fun _ _ => rfl
          alone := fun _ member => member
          within := Nat.zero_le _
          accepted := fun _ member => absurd member List.not_mem_nil
          requests := (List.append_nil _).symm
          answers := ⟨[], (List.append_nil _).symm, fun _ => allAnswered_nil, fun _ =>
            .inr ⟨allAnswered_nil, frame, rfl, refused⟩⟩ }
  | some known =>
      have accepted : ∀ other ∈ [frame].take 1, Accepted forms other := by
        intro other member
        obtain rfl := List.mem_singleton.mp member
        exact ⟨fits, by rw [read]; rfl⟩
      cases known with
      | none =>
          rw [read] at visited
          obtain ⟨rfl, rfl⟩ := visited
          refine ⟨1, ?_, fun _ => rfl⟩
          exact
            { sound := fun _ sound => sound
              apart := fun _ _ => rfl
              alone := fun _ member => member
              within := le_rfl
              accepted := accepted
              requests := by simp [requestIn, read]
              answers := ⟨[], (List.append_nil _).symm, fun _ => allAnswered_nil,
                fun stops => absurd stops.symm Bool.false_ne_true⟩ }
      | some request =>
          rw [read] at visited
          obtain ⟨rfl, rfl⟩ := visited
          obtain ⟨outcome, answered, log, alone, whole⟩ :=
            serveRequest_handled config forms node throws around conn request world
          refine ⟨1, ?_, fun _ => rfl⟩
          exact
            { sound := fun start => serveRequest_sound config forms node throws around start conn
                request world
              apart := fun other different => by rw [log other, if_neg different, List.append_nil]
              alone := alone
              within := le_rfl
              accepted := accepted
              requests := by simp [requestsOn, log conn, requestIn, read]
              answers := ⟨[answered], by simp [answersOn, log conn],
                fun goes => by simpa [AllAnswered, ← whole] using goes,
                fun stops => .inl ⟨[], answered, rfl, whole ▸ stops, allAnswered_nil⟩⟩ }

theorem ended_append (earlier sent : List TaggedFrame) (count : Nat) (answers more : List Answered)
    (all : AllAnswered answers) (ended : Ended forms sent count more) :
    Ended forms (earlier ++ sent) (earlier.length + count) (answers ++ more) := by
  rcases ended with last | ⟨answered, frame, next, refused⟩
  · exact .inl (lastUnanswered_append answers more all last)
  · refine .inr ⟨(allAnswered_append answers more).mpr ⟨all, answered⟩, frame, ?_, refused⟩
    rw [List.getElem?_append_right (Nat.le_add_right _ _), Nat.add_sub_cancel_left, next]

/-- The frames behind those that were visited do not matter. -/
theorem Progress.front {conn : Conn} {sent : List TaggedFrame} {before after : NodeWorld Conn}
    {goesOn : Bool} {count : Nat} (later : List TaggedFrame)
    (progress : Progress config forms node throws around conn sent before after goesOn count) :
    Progress config forms node throws around conn (sent ++ later) before after goesOn count := by
  have short : (sent ++ later).take count = sent.take count :=
    List.take_append_of_le_length progress.within
  obtain ⟨more, answers, goes, stops⟩ := progress.answers
  exact
    { sound := progress.sound
      apart := progress.apart
      alone := progress.alone
      within := progress.within.trans (by rw [List.length_append]; exact Nat.le_add_right _ _)
      accepted := by
        rw [short]
        exact progress.accepted
      requests := by rw [progress.requests, short]
      answers := by
        refine ⟨more, answers, goes, fun stopped => (stops stopped).imp_right ?_⟩
        rintro ⟨answered, frame, next, refused⟩
        refine ⟨answered, frame, ?_, refused⟩
        rw [List.getElem?_append_left (List.getElem?_eq_some_iff.mp next).1, next] }

theorem Progress.trans {conn : Conn} {frame : TaggedFrame} {sent : List TaggedFrame}
    {before middle after : NodeWorld Conn} {goesOn : Bool} {count : Nat}
    (first : Progress config forms node throws around conn [frame] before middle true 1)
    (later : Progress config forms node throws around conn sent middle after goesOn count) :
    Progress config forms node throws around conn (frame :: sent) before after goesOn
      (count + 1) := by
  obtain ⟨earlier, answers, answered, -⟩ := first.answers
  obtain ⟨rest, more, goes, stops⟩ := later.answers
  exact
    { sound := fun start sound => later.sound start (first.sound start sound)
      apart := fun other different =>
        (later.apart other different).trans (first.apart other different)
      alone := fun change member => first.alone change (later.alone change member)
      within := Nat.succ_le_succ later.within
      accepted := by
        rw [List.take_succ_cons]
        exact List.forall_mem_cons.mpr ⟨first.accepted frame List.mem_cons_self, later.accepted⟩
      requests := by
        rw [later.requests, first.requests, List.append_assoc, ← List.filterMap_append]
        rfl
      answers := ⟨earlier ++ rest, by rw [more, answers, List.append_assoc],
        fun goesOn => (allAnswered_append _ _).mpr ⟨answered rfl, goes goesOn⟩,
        fun stopped => by
          have ended := ended_append forms [frame] sent count earlier rest (answered rfl)
            (stops stopped)
          rwa [List.length_singleton, Nat.add_comm] at ended⟩ }

/-- The frames that are whole, visited one after another. -/
theorem visitAll_progress (fills : FillsAll forms) (conn : Conn) (sent : List TaggedFrame)
    (world : NodeWorld Conn) (fits : ∀ frame ∈ sent, frame.bytes.length ≤ inputLimit) :
    ∃ count, Progress config forms node throws around conn sent world
        (visitAll (visitFrame (nodeConsumer config forms node throws around conn)) world
          (sent.map TaggedFrame.bytes)).world
        (visitAll (visitFrame (nodeConsumer config forms node throws around conn)) world
          (sent.map TaggedFrame.bytes)).left.isSome count ∧
      ((visitAll (visitFrame (nodeConsumer config forms node throws around conn)) world
        (sent.map TaggedFrame.bytes)).left.isSome = true → count = sent.length) := by
  induction sent generalizing world with
  | nil =>
      refine ⟨0, ?_, fun _ => rfl⟩
      exact
        { sound := fun _ sound => sound
          apart := fun _ _ => rfl
          alone := fun _ member => member
          within := le_rfl
          accepted := fun _ member => absurd member List.not_mem_nil
          requests := (List.append_nil _).symm
          answers := ⟨[], (List.append_nil _).symm, fun _ => allAnswered_nil,
            fun stops => absurd stops.symm Bool.false_ne_true⟩ }
  | cons frame sent ih =>
      obtain ⟨one, first, alone⟩ := visit_progress config forms node throws around fills conn world
        frame (fits frame List.mem_cons_self)
      rw [List.map_cons, visitAll]
      generalize visitFrame (nodeConsumer config forms node throws around conn) world
        frame.bytes = visit at first alone ⊢
      obtain ⟨output, goesOn, middle⟩ := visit
      cases goesOn with
      | false => exact ⟨one, first.front _ _ _ _ _ sent, fun goes => absurd goes Bool.false_ne_true⟩
      | true =>
          obtain rfl := alone rfl
          obtain ⟨count, later, all⟩ := ih middle fun other member =>
            fits other (List.mem_cons_of_mem _ member)
          exact ⟨count + 1, first.trans _ _ _ _ _ later, fun goes => congrArg Nat.succ (all goes)⟩

/-! A whole run. -/

/-- Whatever ends the read, the world is the one the requests have left. -/
theorem onRead_world {World : Type} (consumer : Consumer World) (conn : Connection World)
    (recv : Bytes) (opened : conn.isOpen = true) (received : recv ≠ [])
    (within : recv.length ≤ conn._input.prepared.freespace) :
    (onRead consumer conn recv).world =
      (drain (frames inputLimit) (visitFrame consumer) conn.world
        (conn._input.content ++ recv)).world := by
  have stays : ¬ conn.isOpen = false := by simp only [opened, Bool.true_eq_false, not_false_eq_true]
  obtain ⟨input, pumped, content⟩ := BlockBuffer.pump_some conn._input recv received within
  have small : (conn._input.content ++ recv).length ≤ inputLimit := by
    rw [← content]
    exact input_length input
  have reports := onData_drain consumer inputLimit conn.world (conn._input.content ++ recv) small
  rw [onRead, if_neg stays, pumped, ← reports.world]
  simp only [content]
  generalize onData consumer conn.world (conn._input.content ++ recv) = handled
  obtain ⟨ended, offset, world, processed⟩ := handled
  cases ended with
  | ok ret =>
      simp only
      split <;> rfl
  | error exn =>
      cases exn with
      | socketExn errno raised =>
          simp only
          split <;> rfl
      | readStreamExn => rfl
      | cerealException => rfl
      | otherException => rfl

/-- How many of the frames are whole in so many bytes. -/
def arrived : List TaggedFrame → Nat → Nat
  | [], _ => 0
  | frame :: rest, size =>
      if frame.bytes.length ≤ size then arrived rest (size - frame.bytes.length) + 1 else 0

/-- Behind the last whole frame only the beginning of the next one waits. -/
theorem waiting_shorter (frame : TaggedFrame) (rest : List TaggedFrame) (tail more : Bytes)
    (stream : tail ++ more = ((frame :: rest).map TaggedFrame.bytes).flatten)
    (absent : (frames inputLimit).front tail = none) (short : tail.length ≤ inputLimit) :
    tail.length < frame.bytes.length := by
  by_contra long
  have within := Nat.not_lt.mp long
  obtain ⟨behind, rfl⟩ : frame.bytes <+: tail :=
    List.prefix_of_prefix_length_le ⟨_, rfl⟩ ⟨_, stream⟩ within
  rw [tagged_cut inputLimit frame (within.trans short) behind] at absent
  cases absent

theorem arrived_whole (sent : List TaggedFrame) (count : Nat) (within : count ≤ sent.length)
    (tail more : Bytes) (stream : tail ++ more = ((sent.drop count).map TaggedFrame.bytes).flatten)
    (absent : (frames inputLimit).front tail = none) (short : tail.length ≤ inputLimit) :
    arrived sent (((sent.take count).map TaggedFrame.bytes).flatten ++ tail).length = count := by
  induction sent generalizing count with
  | nil =>
      obtain rfl := Nat.le_zero.mp within
      rfl
  | cons frame rest ih =>
      cases count with
      | zero =>
          exact if_neg (Nat.not_le.mpr (waiting_shorter frame rest tail more stream absent short))
      | succ count =>
          have later := ih count (Nat.le_of_succ_le_succ within) stream
          simp only [List.length_append, List.take_succ_cons, List.map_cons, List.flatten_cons,
            arrived] at later ⊢
          rw [if_pos (by omega), Nat.add_assoc, Nat.add_sub_cancel_left, later]

theorem arrived_least (sent : List TaggedFrame) (count size : Nat) (within : count ≤ sent.length)
    (there : ((sent.take count).map TaggedFrame.bytes).flatten.length ≤ size) :
    count ≤ arrived sent size := by
  induction sent generalizing count size with
  | nil => exact within
  | cons frame rest ih =>
      cases count with
      | zero => exact Nat.zero_le _
      | succ count =>
          simp only [List.take_succ_cons, List.map_cons, List.flatten_cons,
            List.length_append] at there
          rw [arrived, if_pos (by omega)]
          exact Nat.succ_le_succ (ih count _ (Nat.le_of_succ_le_succ within) (by omega))

/-- A frame is cut off, or it is one that the buffer never has room for. -/
theorem tagged_cases (frame : TaggedFrame) :
    (∀ more, (frames inputLimit).front (frame.bytes ++ more) = some frame.bytes.length) ∨
      ∀ more, (frames inputLimit).front (frame.bytes ++ more) = none := by
  by_cases fits : frame.bytes.length ≤ inputLimit
  · exact .inl fun more => tagged_cut inputLimit frame fits more
  · exact .inr fun more => wholeFrame_overlong inputLimit _ ⟨frame.bytes.length,
      frameSize_append _ _ _ frame.complete, Nat.not_le.mp fits⟩

/-- A connection against the frames that were sent on it and what has been
received of them: so many have been handled. -/
structure Served (sent : List TaggedFrame) (received : Bytes) (conn : Conn)
    (process : Process Conn) (count : Nat) : Prop where
  within : count ≤ sent.length
  accepted : ∀ frame ∈ sent.take count, Accepted forms frame
  requests : requestsOn conn process.world.log = (sent.take count).filterMap (requestIn forms)
  parts : ∃ tail, received = ((sent.take count).map TaggedFrame.bytes).flatten ++ tail ∧
    ((process.links conn).isOpen = true → tail = (process.links conn)._input.content ∧
      (frames inputLimit).front tail = none)
  opened : (process.links conn).isOpen = true →
    AllAnswered (answersOn conn process.world.log)
  closed : (process.links conn).isOpen = false →
    Ended forms sent count (answersOn conn process.world.log)

/-- One read: the frames that are whole by then are handled, and what is left in
the buffer is the beginning of the next one. -/
theorem recv_progress (fills : FillsAll forms) (pending : List TaggedFrame) (bytes more : Bytes)
    (conn : Conn) (process : Process Conn) (opened : (process.links conn).isOpen = true)
    (waiting : (frames inputLimit).front (process.links conn)._input.content = none)
    (stream : (process.links conn)._input.content ++ (bytes ++ more) =
      (pending.map TaggedFrame.bytes).flatten)
    (delivers : Delivers (attached process conn) bytes) :
    ∃ count tail, (process.links conn)._input.content ++ bytes =
        ((pending.take count).map TaggedFrame.bytes).flatten ++ tail ∧
      Progress config forms node throws around conn pending process.world
        (processing config forms node throws around (.recv conn bytes) process).2.world
        ((processing config forms node throws around (.recv conn bytes) process).2.links
          conn).isOpen count ∧
      (((processing config forms node throws around (.recv conn bytes) process).2.links
          conn).isOpen = true →
        tail = ((processing config forms node throws around (.recv conn bytes) process).2.links
          conn)._input.content ∧ (frames inputLimit).front tail = none) := by
  have link : (processing config forms node throws around (.recv conn bytes) process).2.links
      conn = ⟨(onRead _ (attached process conn) bytes)._input,
        (onRead _ (attached process conn) bytes).isOpen⟩ :=
    Function.update_self conn _ process.links
  have same : (processing config forms node throws around (.recv conn bytes) process).2.world =
    (onRead _ (attached process conn) bytes).world := rfl
  rw [link, same]
  by_cases full : (process.links conn)._input.prepared.freespace = 0
  · -- The buffer is full of the beginning of a frame.
    have limit : (process.links conn)._input.content.length = inputLimit :=
      BlockBuffer.prepared_full _ (by decide) full
    obtain ⟨frame, rest, rfl⟩ : ∃ frame rest, pending = frame :: rest := by
      cases pending with
      | nil =>
          rw [(List.append_eq_nil_iff.mp stream).1] at limit
          cases limit
      | cons frame rest => exact ⟨frame, rest, rfl⟩
    have shorter := waiting_shorter frame rest _ _ stream waiting limit.le
    rw [onRead_full _ (attached process conn) bytes opened full]
    refine ⟨0, _, (List.nil_append _).symm, ?_, fun still => absurd still Bool.false_ne_true⟩
    exact
      { sound := fun _ sound => sound
        apart := fun _ _ => rfl
        alone := fun _ member => member
        within := Nat.zero_le _
        accepted := fun _ member => absurd member List.not_mem_nil
        requests := (List.append_nil _).symm
        answers := ⟨[], (List.append_nil _).symm, fun _ => allAnswered_nil, fun _ =>
          .inr ⟨allAnswered_nil, frame, rfl, fun accepted => by
            have fits := accepted.1
            omega⟩⟩ }
  · obtain ⟨something, inside⟩ := delivers opened full
    obtain ⟨-, outcome⟩ := onRead_drain (nodeConsumer config forms node throws around conn)
      (attached process conn) bytes opened something inside
    have world := onRead_world (nodeConsumer config forms node throws around conn)
      (attached process conn) bytes opened something inside
    obtain ⟨k, tail, parts, unread, proper, drained⟩ := drain_prefix (frames inputLimit)
      (visitFrame (nodeConsumer config forms node throws around conn)) process.world
      (pending.map TaggedFrame.bytes) ((process.links conn)._input.content ++ bytes) more
      (by rw [List.append_assoc]; exact stream) (by
        intro piece member
        obtain ⟨frame, -, rfl⟩ := List.mem_map.mp member
        exact tagged_cases frame)
    rw [← List.map_take] at drained parts proper
    obtain ⟨count, progress, all⟩ := visitAll_progress config forms node throws around fills conn
      (pending.take k) process.world (by
        intro frame member
        have cut := proper _ (List.mem_map_of_mem member) []
        exact ((wholeFrame_some inputLimit _ _).mp cut).2.2)
    rw [world]
    simp only [attached] at outcome ⊢
    rw [drained] at outcome ⊢
    have front := progress.front _ _ _ _ _ (pending.drop k)
    rw [List.take_append_drop] at front
    have few : (pending.take k).take count = pending.take count := by
      have short := progress.within
      rw [List.length_take] at short
      rw [List.take_take, Nat.min_eq_left (short.trans (Nat.min_le_left _ _))]
    have read : (process.links conn)._input.content ++ bytes =
        ((pending.take count).map TaggedFrame.bytes).flatten ++
          ((((pending.take k).drop count).map TaggedFrame.bytes).flatten ++ tail) := by
      rw [parts, ← few, ← List.append_assoc, ← List.flatten_append, ← List.map_append,
        List.take_append_drop]
    refine ⟨count, _, read, ?_⟩
    generalize visitAll _ process.world _ = visited at outcome front all ⊢
    cases left : visited.left with
    | none =>
        rw [left] at outcome front
        rw [outcome]
        exact ⟨front, fun still => absurd still Bool.false_ne_true⟩
    | some rest =>
        rw [left] at outcome front all
        rw [outcome.1]
        refine ⟨front, fun _ => ?_⟩
        rw [all rfl, List.drop_length]
        exact ⟨outcome.2.2.symm, unread⟩

theorem served_recv (fills : FillsAll forms) (sent : List TaggedFrame) (received bytes : Bytes)
    (conn : Conn) (process : Process Conn) (count : Nat)
    (arrives : received ++ bytes <+: (sent.map TaggedFrame.bytes).flatten)
    (delivers : Delivers (attached process conn) bytes)
    (served : Served forms sent received conn process count) :
    (∃ later, Served forms sent (received ++ bytes) conn
      (processing config forms node throws around (.recv conn bytes) process).2 later) ∧
    (∀ start, Sound config forms node throws around start process.world →
      Sound config forms node throws around start
        (processing config forms node throws around (.recv conn bytes) process).2.world) ∧
    (∀ other, other ≠ conn → handledOn other
        (processing config forms node throws around (.recv conn bytes) process).2.world.log =
      handledOn other process.world.log) ∧
    ∀ change, Entry.elsewhere change ∈
        (processing config forms node throws around (.recv conn bytes) process).2.world.log →
      Entry.elsewhere change ∈ process.world.log := by
  obtain ⟨within, accepted, requests, ⟨tail, parts, waiting⟩, opened, closed⟩ := served
  cases state : (process.links conn).isOpen with
  | false =>
      have unread : onRead (nodeConsumer config forms node throws around conn)
          (attached process conn) bytes = attached process conn := onRead_closed _ _ _ state
      have same : (processing config forms node throws around (.recv conn bytes) process).2 =
          process := by
        simp only [processing, unread]
        exact congrArg (Process.mk process.world) (Function.update_eq_self conn process.links)
      rw [same]
      refine ⟨⟨count, within, accepted, requests, ⟨tail ++ bytes, ?_, fun opened => ?_⟩, opened,
        closed⟩, fun _ sound => sound, fun _ _ => rfl, fun _ member => member⟩
      · rw [parts, List.append_assoc]
      · rw [state] at opened
        cases opened
  | true =>
      obtain ⟨rfl, absent⟩ := waiting state
      obtain ⟨more, whole⟩ := arrives
      rw [← List.take_append_drop count sent, List.map_append, List.flatten_append, parts,
        List.append_assoc, List.append_assoc, List.append_cancel_left_eq] at whole
      obtain ⟨j, rest, read, progress, left⟩ := recv_progress config forms node throws around fills
        (sent.drop count) bytes more conn process state absent whole delivers
      generalize (processing config forms node throws around (.recv conn bytes) process).2 = after
        at progress left ⊢
      obtain ⟨new, answers, goes, stops⟩ := progress.answers
      have few := progress.within
      rw [List.length_drop] at few
      have parted : sent.take (count + j) = sent.take count ++ (sent.drop count).take j :=
        List.take_add
      refine ⟨⟨count + j, by omega, ?_, ?_, ⟨rest, ?_, left⟩, ?_, ?_⟩, progress.sound,
        progress.apart, progress.alone⟩
      · rw [parted]
        exact List.forall_mem_append.mpr ⟨accepted, progress.accepted⟩
      · rw [progress.requests, requests, parted, List.filterMap_append]
      · rw [parts, List.append_assoc, read, parted, List.map_append, List.flatten_append,
          List.append_assoc]
      · intro still
        rw [answers]
        exact (allAnswered_append _ _).mpr ⟨opened state, goes still⟩
      · intro shut
        rw [answers]
        have ended := ended_append forms (sent.take count) (sent.drop count) j _ new (opened state)
          (stops shut)
        rwa [List.take_append_drop, List.length_take_of_le within] at ended

/-- Every connection against what was sent on it. -/
structure AllServed (start : Servers) (sent : Conn → List TaggedFrame) (received : Conn → Bytes)
    (process : Process Conn) : Prop where
  sound : Sound config forms node throws around start process.world
  each : ∀ conn, ∃ count, Served forms (sent conn) (received conn) conn process count

theorem Served.congr {sent : List TaggedFrame} {received : Bytes} {conn : Conn}
    {process after : Process Conn} {count : Nat}
    (served : Served forms sent received conn process count)
    (log : handledOn conn after.world.log = handledOn conn process.world.log)
    (link : after.links conn = process.links conn) :
    Served forms sent received conn after count := by
  obtain ⟨within, accepted, requests, parts, opened, closed⟩ := served
  refine ⟨within, accepted, ?_, ?_, ?_, ?_⟩
  · rwa [requestsOn, log]
  · rwa [link]
  · rwa [link, answersOn, log]
  · rwa [link, answersOn, log]

theorem allServed_fresh (start : Servers) (sent : Conn → List TaggedFrame) :
    AllServed config forms node throws around start sent (fun _ => []) (Process.fresh start) where
  sound := ⟨.start, fun _ => rfl⟩
  each conn := ⟨0, Nat.zero_le _, fun _ member => absurd member List.not_mem_nil, rfl,
    ⟨[], rfl, fun _ => ⟨rfl, rfl⟩⟩, fun _ => allAnswered_nil, fun shut => by cases shut⟩

/-- What one event delivers on a connection. -/
def receivedBy (conn : Conn) : ProcessEvent Conn → Bytes
  | .recv other bytes => if other = conn then bytes else []
  | .elsewhere _ => []

theorem allServed_step (fills : FillsAll forms) (start : Servers)
    (sent : Conn → List TaggedFrame) (received : Conn → Bytes) (process : Process Conn)
    (event : ProcessEvent Conn)
    (arrives : ∀ conn, received conn ++ receivedBy conn event <+:
      ((sent conn).map TaggedFrame.bytes).flatten)
    (receives : Receives process event)
    (before : AllServed config forms node throws around start sent received process) :
    AllServed config forms node throws around start sent
      (fun conn => received conn ++ receivedBy conn event)
      (processing config forms node throws around event process).2 := by
  cases event with
  | elsewhere change =>
      have same : ∀ conn, handledOn conn (process.world.log ++ [.elsewhere change]) =
          handledOn conn process.world.log := fun conn => by
        rw [handledOn_append]
        exact List.append_nil _
      refine ⟨⟨.elsewhere change before.sound.replays, fun conn => ?_⟩, fun conn => ?_⟩
      · simp only [processing, answersOn, same conn]
        exact before.sound.output conn
      · obtain ⟨count, served⟩ := before.each conn
        simp only [receivedBy, List.append_nil]
        exact ⟨count, served.congr forms (same conn) rfl⟩
  | recv conn bytes =>
      obtain ⟨count, served⟩ := before.each conn
      have here := arrives conn
      simp only [receivedBy, ↓reduceIte] at here
      obtain ⟨later, sound, apart, -⟩ := served_recv config forms node throws around fills
        (sent conn) (received conn) bytes conn process count here receives served
      refine ⟨sound start before.sound, fun other => ?_⟩
      by_cases same : conn = other
      · subst same
        simpa only [receivedBy, ↓reduceIte] using later
      · obtain ⟨count, served⟩ := before.each other
        simp only [receivedBy, if_neg same, List.append_nil]
        exact ⟨count, served.congr forms (apart other (Ne.symm same))
          (Function.update_of_ne (Ne.symm same) _ _)⟩

/-- What was received on a connection. -/
def receivedOn (conn : Conn) (schedule : List (ProcessEvent Conn)) : Bytes :=
  schedule.flatMap (receivedBy conn)

theorem allServed_run (fills : FillsAll forms) (start : Servers)
    (sent : Conn → List TaggedFrame) (received : Conn → Bytes) (process : Process Conn)
    (schedule : List (ProcessEvent Conn))
    (arrives : ∀ conn, received conn ++ receivedOn conn schedule <+:
      ((sent conn).map TaggedFrame.bytes).flatten)
    (receives : Throughout (processing config forms node throws around) Program.perform Receives
      process schedule)
    (before : AllServed config forms node throws around start sent received process) :
    AllServed config forms node throws around start sent
      (fun conn => received conn ++ receivedOn conn schedule)
      (runAll (processing config forms node throws around) Program.perform process schedule) := by
  induction schedule generalizing received process with
  | nil => simpa [receivedOn] using before
  | cons event schedule ih =>
      obtain ⟨first, later⟩ := receives
      have split : ∀ conn, received conn ++ receivedOn conn (event :: schedule) =
          (received conn ++ receivedBy conn event) ++ receivedOn conn schedule := fun conn => by
        rw [receivedOn, List.flatMap_cons, List.append_assoc, receivedOn]
      simp only [split] at arrives ⊢
      exact ih _ _ arrives later (allServed_step config forms node throws around fills start sent
        received process event (fun conn => (List.prefix_append _ _).trans (arrives conn)) first
        before)

/-- The process after a schedule. -/
def processAfter (start : Servers) (schedule : List (ProcessEvent Conn)) : Process Conn :=
  runAll (processing config forms node throws around) Program.perform (Process.fresh start) schedule

/-- A process whose connections are read in any order and in any pieces, while
others change the services in between. On every connection the requests of its
frames are handled in the order in which they were sent and each once. As long
as the connection is open these are all the frames that have arrived, each of
them acceptable, and every request has its whole answer. It is closed by a
request without one, which is then the last, or by the first frame that is not
acceptable, with a whole answer to every request before. The answers and the
services are those of running the handlers one after another in the order of the
log. -/
theorem requests_answered_in_order (fills : FillsAll forms) (start : Servers)
    (sent : Conn → List TaggedFrame) (schedule : List (ProcessEvent Conn))
    (arrives : ∀ conn, receivedOn conn schedule <+: ((sent conn).map TaggedFrame.bytes).flatten)
    (receives : Throughout (processing config forms node throws around) Program.perform Receives
      (Process.fresh start) schedule) :
    let process := processAfter config forms node throws around start schedule
    Replays config forms node throws around start process.world.log process.world.servers ∧
      ∀ conn, process.world.output conn = outputOf (answersOn conn process.world.log) ∧
        ∃ count ≤ arrived (sent conn) (receivedOn conn schedule).length,
          (∀ frame ∈ (sent conn).take count, Accepted forms frame) ∧
          requestsOn conn process.world.log =
            ((sent conn).take count).filterMap (requestIn forms) ∧
          ((process.links conn).isOpen = true →
            count = arrived (sent conn) (receivedOn conn schedule).length ∧
              AllAnswered (answersOn conn process.world.log)) ∧
          ((process.links conn).isOpen = false →
            Ended forms (sent conn) count (answersOn conn process.world.log)) := by
  have served := allServed_run config forms node throws around fills start sent (fun _ => []) _
    schedule (by simpa using arrives) receives
    (allServed_fresh config forms node throws around start sent)
  simp only [List.nil_append] at served
  change AllServed config forms node throws around start sent _
    (processAfter config forms node throws around start schedule) at served
  intro process
  refine ⟨served.sound.replays, fun conn => ⟨served.sound.output conn, ?_⟩⟩
  obtain ⟨count, within, accepted, requests, ⟨tail, parts, waiting⟩, opened, closed⟩ :=
    served.each conn
  refine ⟨count, ?_, accepted, requests, fun state => ⟨?_, opened state⟩, closed⟩
  · apply arrived_least (sent conn) count _ within
    rw [parts, List.length_append]
    exact Nat.le_add_right _ _
  · obtain ⟨rfl, absent⟩ := waiting state
    obtain ⟨more, stream⟩ := arrives conn
    rw [parts, ← List.take_append_drop count (sent conn), List.map_append, List.flatten_append,
      List.append_assoc, List.take_append_drop, List.append_cancel_left_eq] at stream
    rw [parts, arrived_whole (sent conn) count within _ more stream absent
      (input_length (process.links conn)._input)]

end Log

/-! Frames as clients build them. -/

/-- The session, the length of the uri and the body, and these. -/
def clientBytes (session : UInt32) (uri : UInt8) (body : Bytes) : Bytes :=
  storeUint32 (XHTONL session) ++ storeUint32 (XHTONL (UInt32.ofNat (1 + body.length))) ++
    uri :: body

theorem clientBytes_lengthWord (session : UInt32) (uri : UInt8) (body : Bytes) :
    lengthWord (clientBytes session uri body) = UInt32.ofNat (1 + body.length) := by
  obtain ⟨a0, a1, a2, a3, first, -⟩ := read_written session
  obtain ⟨b0, b1, b2, b3, second, word⟩ := read_written (UInt32.ofNat (1 + body.length))
  rw [← word, clientBytes, first, second]
  rfl

theorem clientBytes_tagged (session : UInt32) (uri : UInt8) (body : Bytes)
    (fits : body.length + 1 < 2 ^ 29) :
    frameSize (clientBytes session uri body) = some (clientBytes session uri body).length ∧
      protoTag (lengthWord (clientBytes session uri body)) ≤ 1 := by
  have header : JSON_HEADER_SIZE.toNat = 8 := rfl
  have size : (clientBytes session uri body).length = 9 + body.length := by
    simp only [clientBytes, List.length_append, storeUint32_length, List.length_cons]
    omega
  have word : (UInt32.ofNat (1 + body.length)).toNat = 1 + body.length :=
    UInt32.toNat_ofNat_of_lt' (by rw [UInt32.size]; omega)
  constructor
  · rw [frameSize_realLen _ (by omega), clientBytes_lengthWord, UInt32.toNat_add,
      getProtoType_len, word, header, size]
    congr 1
    omega
  · rw [clientBytes_lengthWord, protoTag, word]
    omega

def clientFrame (session : UInt32) (uri : UInt8) (body : Bytes)
    (fits : body.length + 1 < 2 ^ 29) : TaggedFrame :=
  ⟨clientBytes session uri body, (clientBytes_tagged session uri body fits).1,
    (clientBytes_tagged session uri body fits).2⟩

/-- Two wallets ask for a balance, each under a session of its own. -/
def askAlice (session : UInt32) : TaggedFrame :=
  clientFrame session QueryBalance.uri (nodeForms.query.toString ⟨ascii "alice"⟩)
    (by decide +kernel)

def aliceOwns : Servers := fun _ => (∅ : Db).insert (ascii "alice") (.string (ascii "5"))

def zeros : Surroundings :=
  ⟨fun _ => ⟨0, 0, 0⟩, fun _ => 0, fun _ _ => ⟨0, 0⟩, fun _ => 1, fun _ => .taken⟩

def wallets (conn : Bool) : List TaggedFrame := if conn then [askAlice 7] else [askAlice 12]

/-- The first request is cut; the second one is whole before it, and the account
changes in between. -/
def twoWallets : List (ProcessEvent Bool) :=
  [.recv true ((askAlice 7).bytes.take 7), .recv false (askAlice 12).bytes,
    .elsewhere fun _ _ => (∅ : Db).insert (ascii "alice") (.string (ascii "7")),
    .recv true ((askAlice 7).bytes.drop 7)]

theorem twoWallets_receives :
    Throughout (processing rootServerConf nodeForms rootService (fun _ => false) zeros)
      Program.perform Receives (Process.fresh aliceOwns) twoWallets := by
  refine ⟨fun _ _ => ⟨by decide +kernel, ?_⟩, fun _ _ => ⟨by decide +kernel, ?_⟩, trivial,
    fun _ _ => ⟨by decide +kernel, ?_⟩, trivial⟩
  all_goals decide +kernel

theorem twoWallets_arrives (conn : Bool) :
    receivedOn conn twoWallets <+: ((wallets conn).map TaggedFrame.bytes).flatten := by
  cases conn <;> decide +kernel

theorem requests_answered_in_order_twoWallets :
    let process := processAfter rootServerConf nodeForms rootService (fun _ => false) zeros
      aliceOwns twoWallets
    requestsOn true process.world.log = [.query ⟨ascii "alice"⟩] ∧
      AllAnswered (answersOn true process.world.log) := by
  obtain ⟨-, each⟩ := requests_answered_in_order rootServerConf nodeForms rootService
    (fun _ => false) zeros nodeForms_fills aliceOwns wallets twoWallets twoWallets_arrives
    twoWallets_receives
  obtain ⟨-, count, -, -, requests, opened, -⟩ := each true
  obtain ⟨rfl, answered⟩ := opened (by decide +kernel)
  exact ⟨requests.trans (by decide +kernel), answered⟩

end FPayNode.NodeProcess
