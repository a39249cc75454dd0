import FPayNode.NodeProcess

/-!
Both ends of a connection: a peer packs its requests and reads the answers, each
with the senders and consumers that the node itself uses. An answer names no
request. What makes it the answer to one is its place in the stream.
-/

namespace FPayNode.AnswerDelivery

open CommandProgram DecimalText ByteStream UnitStream RedisCache Messages NodeService
open RedisServer hiding Reply
open ChildNodes JsonFrames FrameDelivery SenderFrames BlockSync CerealJson NodeRequests RequestJson
open NodeProcess
open RequestDispatch (TaggedFrame)

def requestUri : Request → UInt8
  | .query _ => QueryBalance.uri
  | .node _ => NodeInfo.uri
  | .transaction _ => Transaction.uri
  | .block _ => Block.uri
  | .syncRequest _ => BlockSyncRequest.uri
  | .syncResponse _ => BlockSyncResponse.uri

def RequestClean : Request → Prop
  | .query req => QueryClean req
  | .node req => NodeClean req
  | .transaction req => req.Clean
  | .block req => req.Clean
  | .syncRequest req => SyncRequestClean req
  | .syncResponse req => SyncResponseClean req

section Forms
variable (forms : Forms)

def requestBody : Request → Bytes
  | .query req => forms.query.toString req
  | .node req => forms.node.toString req
  | .transaction req => forms.transaction.toString req
  | .block req => forms.block.toString req
  | .syncRequest req => forms.syncRequest.toString req
  | .syncResponse req => forms.syncResponse.toString req

/-- The frame is how a peer sends the request, under whatever session. -/
structure Carries (request : Request) (frame : TaggedFrame) : Prop where
  uri : frame.bytes[8]? = some (requestUri request)
  body : frame.bytes.drop 9 = requestBody forms request

theorem load_written {Message : Type} (codec : Codec Message) (Clean : Message → Prop)
    (lawful : codec.Lawful Clean) (message fresh : Message) (clean : Clean message) :
    load codec fresh (codec.toString message) = some message := by
  simp [load, lawful.round message fresh clean]

/-- Every request is read back by the entry of its uri. -/
theorem carries_read (lawful : Lawful forms) (request : Request) (frame : TaggedFrame)
    (clean : RequestClean request) (carries : Carries forms request frame) :
    requestIn forms frame = some request := by
  obtain ⟨uri, body⟩ := carries
  have read {Record : Type} {codec : Codec Record} {Clean : Record → Prop}
      (codecLawful : codec.Lawful Clean) (make : Record → Request) (record fresh : Record)
      (recordClean : Clean record) :
      (((load codec fresh (codec.toString record)).map make).map some).join =
        some (make record) := by
    rw [load_written codec Clean codecLawful record fresh recordClean]
    rfl
  simp only [requestIn, readFrame, uri, body]
  cases request with
  | query req => exact read lawful.query .query req _ clean
  | node req => exact read lawful.node .node req _ clean
  | transaction req => exact read lawful.cereal.transaction .transaction req _ clean
  | block req => exact read lawful.cereal.block .block req _ clean
  | syncRequest req => exact read lawful.syncRequest .syncRequest req _ clean
  | syncResponse req => exact read lawful.syncResponse .syncResponse req _ clean

theorem all_carried (lawful : Lawful forms) (asked : List Request) (sent : List TaggedFrame)
    (clean : ∀ request ∈ asked, RequestClean request)
    (carried : List.Forall₂ (Carries forms) asked sent) :
    sent.filterMap (requestIn forms) = asked := by
  induction carried with
  | nil => rfl
  | @cons request frame asked sent carries _ ih =>
      rw [List.filterMap_cons, carries_read forms lawful request frame
        (clean request List.mem_cons_self) carries,
        ih fun other member => clean other (List.mem_cons_of_mem _ member)]

/-! What goes back. -/

/-- The peer can read the answer: the length word and its input buffer have room
for it. -/
def Deliverable (reply : Reply) : Prop :=
  (reply.body forms).length + 1 < 2 ^ 29 ∧ 9 + (reply.body forms).length ≤ inputLimit

instance (reply : Reply) : Decidable (Deliverable forms reply) :=
  inferInstanceAs (Decidable (_ ∧ _))

def heard (reply : Reply) : JsonRequest :=
  ⟨reply.body forms, .json, 0xFFFFFFFF, (UInt32.ofNat (1 + (reply.body forms).length)).toUInt64,
    reply.uri⟩

variable {Conn : Type} [DecidableEq Conn]

/-- The requests that a handler has returned for, with what it answered. -/
def repliesIn (handled : List (Request × Outcome × Answered)) : List (Request × Reply) :=
  handled.filterMap fun entry =>
    match entry.2.1 with
    | some (.ok reply) => some (entry.1, reply)
    | _ => none

def repliesOn (conn : Conn) (log : List (Entry Conn)) : List (Request × Reply) :=
  repliesIn (handledOn conn log)

def replyBytes (reply : Reply) : Bytes := clientBytes 0xFFFFFFFF reply.uri (reply.body forms)

variable (config : Config) (node : FPService) (throws : Bytes → Bool) (around : Surroundings)

theorem replays_answers (start servers : Servers) (log : List (Entry Conn))
    (replays : Replays config forms node throws around start log servers) (conn : Conn) :
    ∀ entry ∈ handledOn conn log, ∃ n, entry.2.2 = answerTo forms around n entry.2.1 := by
  induction replays with
  | start => exact fun _ member => absurd member List.not_mem_nil
  | handled other request _ ih =>
      intro entry member
      rw [handledOn_append] at member
      rcases List.mem_append.mp member with old | new
      · exact ih entry old
      · by_cases same : other = conn
        · simp [handledOn, Entry.on, same] at new
          exact ⟨_, by rw [new]⟩
        · simp [handledOn, Entry.on, same] at new
  | elsewhere change _ ih =>
      intro entry member
      rw [handledOn_append] at member
      rcases List.mem_append.mp member with old | new
      · exact ih entry old
      · simp [handledOn, Entry.on] at new

/-- Only the last answer may be torn. -/
def Settled (answers : List Answered) : Prop := AllAnswered answers ∨ LastUnanswered answers

theorem settled_cons (first : Answered) (answers : List Answered)
    (settled : Settled (first :: answers)) :
    first.whole = true ∧ Settled answers ∨ first.whole = false ∧ answers = [] := by
  rcases settled with all | ⟨earlier, last, parts, torn, before⟩
  · obtain ⟨whole, others⟩ := List.forall_mem_cons.mp all
    exact .inl ⟨whole, .inl others⟩
  · cases earlier with
    | nil =>
        cases parts
        exact .inr ⟨torn, rfl⟩
    | cons head earlier =>
        cases parts
        obtain ⟨whole, others⟩ := List.forall_mem_cons.mp before
        exact .inl ⟨whole, .inr ⟨earlier, last, rfl, torn, others⟩⟩

theorem output_prefix (frame : Bytes) (sending : Sending) :
    Answered.output ⟨some frame, sending⟩ <+: frame := by
  cases sending with
  | taken => exact List.prefix_rfl
  | reset errno raised => exact List.nil_prefix
  | overflowed part => exact List.take_prefix _ frame

theorem output_whole (answered : Answered) (whole : answered.whole = true) :
    answered.frame = some answered.output := by
  obtain ⟨frame, sending⟩ := answered
  cases frame with
  | none => cases whole
  | some bytes =>
      cases sending with
      | taken => rfl
      | reset errno raised => cases whole
      | overflowed part => cases whole

/-- What was handled against the messages of the replies: these go out one behind
the other, all of them when no answer is torn. -/
structure Tells (handled : List (Request × Outcome × Answered)) (messages : List Message) :
    Prop where
  frames : messages.map Message.frame = (repliesIn handled).map fun entry =>
    replyBytes forms entry.2
  requests : messages.map Message.request = (repliesIn handled).map fun entry =>
    heard forms entry.2
  within : ∀ message ∈ messages, message.frame.length ≤ inputLimit
  asked : (repliesIn handled).map Prod.fst <+: handled.map fun entry => entry.1
  output : outputOf (handled.map fun entry => entry.2.2) <+: (messages.map Message.frame).flatten
  whole : AllAnswered (handled.map fun entry => entry.2.2) →
    outputOf (handled.map fun entry => entry.2.2) = (messages.map Message.frame).flatten ∧
      (repliesIn handled).map Prod.fst = handled.map fun entry => entry.1

theorem answerTo_reply (n : Nat) (reply : Reply) (fits : (reply.body forms).length + 1 < 2 ^ 29) :
    answerTo forms around n (some (.ok reply)) =
      ⟨some (Message.frame ⟨reply.uri, reply.body forms, fits⟩), around.sending n⟩ := by
  rw [← answer_frame forms (around.length n) reply fits]
  rfl

theorem answerTo_whole (n : Nat) (outcome : Outcome)
    (whole : (answerTo forms around n outcome).whole = true) :
    ∃ reply, outcome = some (.ok reply) := by
  rcases outcome with _ | _ | reply
  · cases whole
  · cases whole
  · exact ⟨reply, rfl⟩

theorem answered_replies (handled : List (Request × Outcome × Answered))
    (noted : ∀ entry ∈ handled, ∃ n, entry.2.2 = answerTo forms around n entry.2.1)
    (settled : Settled (handled.map fun entry => entry.2.2))
    (small : ∀ entry ∈ repliesIn handled, Deliverable forms entry.2) :
    ∃ messages, Tells forms handled messages := by
  induction handled with
  | nil =>
      exact ⟨[], rfl, rfl, fun _ member => absurd member List.not_mem_nil, List.prefix_rfl,
        List.prefix_rfl, fun _ => ⟨rfl, rfl⟩⟩
  | cons entry handled ih =>
      obtain ⟨request, outcome, answered⟩ := entry
      obtain ⟨n, is⟩ := noted _ List.mem_cons_self
      obtain rfl : answered = answerTo forms around n outcome := is
      rcases settled_cons _ _ settled with ⟨whole, rest⟩ | ⟨torn, nothing⟩
      · obtain ⟨reply, rfl⟩ := answerTo_whole forms around n outcome whole
        obtain ⟨fits, room⟩ := small _ List.mem_cons_self
        obtain ⟨messages, told⟩ := ih
          (fun entry member => noted entry (List.mem_cons_of_mem _ member)) rest fun entry member => small entry (List.mem_cons_of_mem _ member)
        have out := output_whole _ whole
        rw [answerTo_reply forms around n reply fits] at out whole ⊢
        have front : outputOf (((request, some (.ok reply), (⟨some (Message.frame
            ⟨reply.uri, reply.body forms, fits⟩), around.sending n⟩ : Answered)) :: handled).map
              fun entry => entry.2.2) =
            Message.frame ⟨reply.uri, reply.body forms, fits⟩ ++
              outputOf (handled.map fun entry => entry.2.2) := by
          rw [List.map_cons, outputOf, List.flatMap_cons, ← Option.some.inj out]
          rfl
        refine ⟨⟨reply.uri, reply.body forms, fits⟩ :: messages, ?_, ?_, ?_, ?_, ?_, ?_⟩
        · exact congrArg (_ :: ·) told.frames
        · exact congrArg (_ :: ·) told.requests
        · refine List.forall_mem_cons.mpr ⟨?_, told.within⟩
          rw [Message.frame_length]
          exact room
        · exact List.cons_prefix_cons.mpr ⟨rfl, told.asked⟩
        · rw [front, List.map_cons, List.flatten_cons]
          exact List.prefix_append_right_inj _ |>.mpr told.output
        · intro all
          obtain ⟨output, asked⟩ := told.whole (List.forall_mem_cons.mp all).2
          exact ⟨by rw [front, output]; rfl, congrArg (_ :: ·) asked⟩
      · -- Behind a torn answer nothing is handled.
        obtain rfl := List.map_eq_nil_iff.mp nothing
        have notAll : ¬ AllAnswered [answerTo forms around n outcome] := by
          intro all
          rw [all _ List.mem_cons_self] at torn
          cases torn
        rcases outcome with _ | _ | reply
        · exact ⟨[], rfl, rfl, fun _ member => absurd member List.not_mem_nil, List.nil_prefix,
            List.prefix_rfl, fun all => absurd all notAll⟩
        · exact ⟨[], rfl, rfl, fun _ member => absurd member List.not_mem_nil, List.nil_prefix,
            List.prefix_rfl, fun all => absurd all notAll⟩
        · obtain ⟨fits, room⟩ := small _ List.mem_cons_self
          refine ⟨[⟨reply.uri, reply.body forms, fits⟩], rfl, rfl, ?_, List.prefix_rfl, ?_,
            fun all => absurd all notAll⟩
          · intro message member
            obtain rfl := List.mem_singleton.mp member
            rw [Message.frame_length]
            exact room
          · have part := output_prefix (Message.frame ⟨reply.uri, reply.body forms, fits⟩)
              (around.sending n)
            rw [← answerTo_reply forms around n reply fits] at part
            simpa [outputOf] using part

/-! What the peer makes of it. -/

/-- Whoever receives the front of some frames in pieces is given the requests of
those that are whole. -/
theorem heard_frames {Peer : Type} (peer : Consumer Peer) (state : Peer) (pieces : List Bytes)
    (messages : List Message) (within : ∀ message ∈ messages, message.frame.length ≤ inputLimit)
    (stream : pieces.flatten <+: (messages.map Message.frame).flatten)
    (delivers : Throughout (receiving peer) Program.perform Delivers (Connection.fresh state)
      pieces) :
    ∃ count tail, pieces.flatten = ((messages.take count).map Message.frame).flatten ++ tail ∧
      (∀ message, messages[count]? = some message → tail.length < message.frame.length) ∧
      (runAll (receiving peer) Program.perform (Connection.fresh state) pieces).processed.map
          Processed.request =
        (serve peer state ((messages.take count).map Message.request)).1.map some := by
  have follows := follows_runAll peer state [] (Connection.fresh state) pieces
    (follows_fresh peer state) delivers
  obtain ⟨more, whole⟩ := stream
  obtain ⟨count, tail, parts, unread, -, drained⟩ := drain_prefix (frames inputLimit)
    (visitFrame peer) state (messages.map Message.frame) pieces.flatten more whole (by
      intro piece member
      obtain ⟨message, inside, rfl⟩ := List.mem_map.mp member
      exact .inl fun more => frame_cut inputLimit message (within message inside) more)
  rw [← List.map_take] at parts drained
  refine ⟨count, tail, parts, fun message next => ?_, ?_⟩
  · by_contra long
    have behind : tail ++ more = message.frame ++
        ((messages.drop (count + 1)).map Message.frame).flatten := by
      have rest : messages.drop count = message :: messages.drop (count + 1) :=
        List.drop_eq_getElem?_toList_append.trans (by rw [next]; rfl)
      rw [parts, ← List.take_append_drop count messages, List.map_append, List.flatten_append,
        List.append_assoc, List.take_append_drop, List.append_cancel_left_eq, rest] at whole
      exact whole
    obtain ⟨excess, rfl⟩ : message.frame <+: tail :=
      List.prefix_of_prefix_length_le ⟨_, rfl⟩ ⟨_, behind⟩ (Nat.not_lt.mp long)
    rw [frame_cut inputLimit message (within message (List.mem_of_getElem? next)) excess] at unread
    cases unread
  · rw [follows.processed, List.nil_append, drained]
    exact (visitAll_messages peer state (messages.take count)).1

/-- Peers that ask over any number of connections, read in any order and in any
pieces, while others change the services. A peer that has read any part of what
came back on its connection, in whatever pieces, has been given exactly the
answers whose frames were whole in it, those of the handlers to its requests in
the order in which they were asked, as long as it goes on. While the connection
is open these are the answers to all requests that have come; and a peer that
packed the requests itself has its own back. -/
theorem answers_heard_in_order (fills : FillsAll forms) (lawful : Lawful forms) (start : Servers)
    (sent : Conn → List TaggedFrame) (schedule : List (ProcessEvent Conn))
    (arrives : ∀ conn, receivedOn conn schedule <+: ((sent conn).map TaggedFrame.bytes).flatten)
    (receives : Throughout (processing config forms node throws around) Program.perform Receives
      (Process.fresh start) schedule) (conn : Conn)
    (small : ∀ entry ∈ repliesOn conn
      (processAfter config forms node throws around start schedule).world.log,
      Deliverable forms entry.2)
    {Peer : Type} (peer : Consumer Peer) (state : Peer) (pieces : List Bytes)
    (stream : pieces.flatten <+:
      (processAfter config forms node throws around start schedule).world.output conn)
    (delivers : Throughout (receiving peer) Program.perform Delivers (Connection.fresh state)
      pieces) :
    let process := processAfter config forms node throws around start schedule
    let replies := repliesOn conn process.world.log
    let come := (sent conn).take (arrived (sent conn) (receivedOn conn schedule).length)
    (∃ count tail,
      pieces.flatten =
        ((replies.take count).flatMap fun entry => replyBytes forms entry.2) ++ tail ∧
      (∀ entry, replies[count]? = some entry → tail.length < (replyBytes forms entry.2).length) ∧
      (runAll (receiving peer) Program.perform (Connection.fresh state) pieces).processed.map
          Processed.request =
        (serve peer state ((replies.take count).map fun entry => heard forms entry.2)).1.map some) ∧
      replies.map Prod.fst <+: come.filterMap (requestIn forms) ∧
      ((process.links conn).isOpen = true →
        replies.map Prod.fst = come.filterMap (requestIn forms) ∧
          process.world.output conn = replies.flatMap (fun entry => replyBytes forms entry.2) ∧
          ∀ asked, List.Forall₂ (Carries forms) asked come →
            (∀ request ∈ asked, RequestClean request) → replies.map Prod.fst = asked) := by
  intro process replies come
  obtain ⟨replays, each⟩ := requests_answered_in_order config forms node throws around fills start
    sent schedule arrives receives
  obtain ⟨output, count, within, -, requests, opened, closed⟩ := each conn
  change process.world.output conn = outputOf (answersOn conn process.world.log) at output
  have settled : Settled (answersOn conn process.world.log) := by
    cases state : (process.links conn).isOpen with
    | true => exact .inl (opened state).2
    | false =>
        rcases closed state with last | ⟨all, -⟩
        · exact .inr last
        · exact .inl all
  obtain ⟨messages, told⟩ := answered_replies forms around (handledOn conn process.world.log)
    (replays_answers forms config node throws around start _ _ replays conn) settled small
  have frames : ∀ n, ((messages.take n).map Message.frame).flatten =
      (replies.take n).flatMap fun entry => replyBytes forms entry.2 := by
    intro n
    rw [List.map_take, told.frames, ← List.map_take, List.flatMap_def]
    rfl
  have asked : requestsOn conn process.world.log <+: come.filterMap (requestIn forms) := by
    rw [requests]
    exact (List.take_prefix_take_left within).filterMap _
  refine ⟨?_, told.asked.trans asked, fun state => ?_⟩
  · have front : pieces.flatten <+: (messages.map Message.frame).flatten := by
      rw [output] at stream
      exact stream.trans told.output
    obtain ⟨n, tail, parts, shorter, processed⟩ :=
      heard_frames peer state pieces messages told.within front delivers
    refine ⟨n, tail, by rw [parts, frames], fun entry next => ?_, ?_⟩
    · have there : (messages.map Message.frame)[n]? = some (replyBytes forms entry.2) := by
        rw [told.frames, List.getElem?_map]
        exact congrArg (Option.map _) next
      rw [List.getElem?_map] at there
      obtain ⟨message, found, same⟩ := Option.map_eq_some_iff.mp there
      exact same ▸ shorter message found
    · rw [processed, List.map_take, told.requests, List.map_take]
      rfl
  · obtain ⟨same, all⟩ := opened state
    obtain ⟨whole, answered⟩ := told.whole all
    have names : replies.map Prod.fst = come.filterMap (requestIn forms) := by
      rw [show come = (sent conn).take count by rw [same]]
      exact answered.trans requests
    refine ⟨names, ?_, fun asked carried clean => ?_⟩
    · rw [output]
      exact whole.trans (by rw [told.frames, List.flatMap_def]; rfl)
    · rw [names, all_carried forms lawful asked come clean carried]

end Forms

def aliceHears : List Bytes :=
  let output := (processAfter rootServerConf nodeForms rootService (fun _ => false) zeros
    aliceOwns twoWallets).world.output true
  [output.take 5, output.drop 5]

/-- It is told the balance of the moment its request was whole. -/
def aliceTold : Reply := .response ⟨0, [], ascii "balance = 7"⟩

theorem answers_heard_in_order_alice :
    (runAll (receiving counting) Program.perform (Connection.fresh 0) aliceHears).processed.map
        Processed.request = [some (heard nodeForms aliceTold)] ∧
      (repliesOn true (processAfter rootServerConf nodeForms rootService (fun _ => false) zeros
        aliceOwns twoWallets).world.log).map Prod.fst = [.query ⟨ascii "alice"⟩] := by
  obtain ⟨⟨count, tail, parts, shorter, processed⟩, -, opened⟩ := answers_heard_in_order nodeForms
    rootServerConf rootService (fun _ => false) zeros nodeForms_fills nodeForms_lawful aliceOwns
    wallets twoWallets twoWallets_arrives twoWallets_receives true (by decide +kernel) counting 0
    aliceHears (by decide +kernel)
    (by
      refine ⟨fun _ _ => ⟨by decide +kernel, ?_⟩, fun _ _ => ⟨by decide +kernel, ?_⟩, trivial⟩
      all_goals decide +kernel)
  obtain ⟨-, -, own⟩ := opened (by decide +kernel)
  have replies : repliesOn true (processAfter rootServerConf nodeForms rootService (fun _ => false)
      zeros aliceOwns twoWallets).world.log = [(.query ⟨ascii "alice"⟩, aliceTold)] := by
    decide +kernel
  rw [replies] at parts shorter processed
  constructor
  · cases count with
    | zero =>
        -- The whole answer has been read, so the first one is among those that were heard.
        have short := shorter _ rfl
        rw [List.take_zero, List.flatMap_nil, List.nil_append] at parts
        rw [← parts] at short
        exact absurd short (by decide +kernel)
    | succ count =>
        rw [processed, List.take_succ_cons, List.take_nil, List.map_cons, List.map_nil]
        rfl
  · refine own [.query ⟨ascii "alice"⟩] ?_ ?_
    · exact .cons ⟨rfl, rfl⟩ .nil
    · intro request member
      obtain rfl := List.mem_singleton.mp member
      exact show CString (ascii "alice") by decide

end FPayNode.AnswerDelivery
