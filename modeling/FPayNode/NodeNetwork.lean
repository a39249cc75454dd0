import FPayNode.Budgets
import FPayNode.ReplayStages
import FPayNode.RequestJson

/-!
Nodes that know each other only by address. Each has its own configuration, so
two nodes share records where they name the same service. What one sends to
another is a letter on its way until a worker of a node that hears the address
takes it; a letter may get lost and letters overtake one another. Every command
to a service may fail, before or after it was carried out. The answer to a
letter goes back to its sender, where a node has no entry for it.
-/

namespace FPayNode.NodeNetwork

open CommandProgram WorkerPool Budgets DecimalText RedisServer RedisCache Messages NodeService
open NodeStartup NodeRequests RequestJson BlockSync ChildNodes
open BlockCreation (getBlock_issues)

structure Letter where
  ipport : Bytes
  uri : UInt8
  body : Bytes
  deriving DecidableEq

/-- What becomes of a command to a service: `unheard` is carried out, but the
answer is lost. -/
inductive Fate where
  | answered | unheard | lost
  deriving DecidableEq

/-- `asked` counts the commands to the services. -/
structure Network where
  servers : Servers
  letters : List Letter
  asked : Nat

inductive NetCommand (Node : Type) where
  | act (effect : Effect)
  | post (letter : Letter)
  | take (node : Node) (place : Nat)
  | drop (place : Nat)

inductive NetAnswer where
  | act (answer : Answer)
  | done
  | taken (letter : Option Letter)

section Machine
variable {Node : Type} (throws : Bytes → Bool) (fate : Nat → Fate)
variable (hears : Node → Bytes → Bool)

def network : Machine (NetCommand Node) NetAnswer Network
  | .act (.redis service command), net =>
      let served := serve throws (.redis service command) net.servers
      match fate net.asked with
      | .answered => (.act served.1, { net with servers := served.2, asked := net.asked + 1 })
      | .unheard => (.act .lost, { net with servers := served.2, asked := net.asked + 1 })
      | .lost => (.act .lost, { net with asked := net.asked + 1 })
  | .act (.sendTo ipport uri body), net =>
      if throws ipport then (.act .threw, net)
      else (.act .sent, { net with letters := net.letters ++ [⟨ipport, uri, body⟩] })
  | .post letter, net => (.done, { net with letters := net.letters ++ [letter] })
  | .take node place, net =>
      match net.letters[place]? with
      | some letter =>
          if hears node letter.ipport then
            (.taken (some letter), { net with letters := net.letters.eraseIdx place })
          else (.taken none, net)
      | none => (.taken none, net)
  | .drop place, net => (.done, { net with letters := net.letters.eraseIdx place })

/-- The services change by the command, or not at all. -/
theorem network_redis_cases (service : Bytes) (command : RedisServer.Command) (net : Network) :
    ((network throws fate hears (.act (.redis service command)) net).2.servers = net.servers ∨
      (network throws fate hears (.act (.redis service command)) net).2.servers =
        (serve throws (.redis service command) net.servers).2) ∧
    (network throws fate hears (.act (.redis service command)) net).2.letters = net.letters ∧
    ((network throws fate hears (.act (.redis service command)) net).1 = .act .lost ∨
      (network throws fate hears (.act (.redis service command)) net).1 =
        .act (serve throws (.redis service command) net.servers).1) := by
  simp only [network]
  cases fate net.asked with
  | answered => exact ⟨.inr rfl, rfl, .inr rfl⟩
  | unheard => exact ⟨.inr rfl, rfl, .inl rfl⟩
  | lost => exact ⟨.inl rfl, rfl, .inl rfl⟩

/-- A letter that is taken was on its way, and is heard. -/
theorem network_take_cases (node : Node) (place : Nat) (net : Network) :
    (network throws fate hears (.take node place) net = (.taken none, net)) ∨
    ∃ letter, net.letters[place]? = some letter ∧ hears node letter.ipport = true ∧
      network throws fate hears (.take node place) net =
        (.taken (some letter), { net with letters := net.letters.eraseIdx place }) := by
  simp only [network]
  cases found : net.letters[place]? with
  | none => exact .inl rfl
  | some letter =>
      cases heard : hears node letter.ipport with
      | false => exact .inl (by simp [heard])
      | true => exact .inr ⟨letter, rfl, heard, by simp [heard]⟩

end Machine

/-! What the workers do. -/

structure Site where
  config : Config
  service : FPService

/-- `post` is a wallet that sends something, `drop` a letter that gets lost. -/
inductive NetJob where
  | post (letter : Letter)
  | drop (place : Nat)
  | boot (boot : Boot)
  | serve (place : Nat) (memory : Nat → Uninitialized) (reads : Nat)
  | tick (moment : Moment)

inductive NetResult where
  | done
  | booted (started : Started)
  | nothing
  | handled (outcome : Outcome)
  | ticked (left : Except Thrown Unit)

abbrev NetEvent (Worker Node : Type) := Event Worker NetJob (NetCommand Node) NetAnswer NetResult

/-- What the payload of a letter is read as; none when there is no entry for
its uri, or it does not load. -/
def readLetter (forms : Forms) (memory : Uninitialized) (letter : Letter) : Option Request :=
  (formHandle forms memory letter.uri).bind fun parse => parse letter.body

def heardOf : NetAnswer → Answer
  | .act answer => answer
  | _ => .lost

section Work
variable {Worker Node : Type} (forms : Forms) (rand : UInt32 → Nat → Nat)
variable (site : Node → Site) (desk : Worker → Node)

def onNode {Result : Type} (calls : Calls Result) :
    Program (NetCommand Node) NetAnswer Result :=
  calls.embed NetCommand.act heardOf

theorem onNode_bind {Result Final : Type} (calls : Calls Result) (rest : Result → Calls Final) :
    (onNode (calls >>= rest) : Program (NetCommand Node) NetAnswer Final) =
      onNode calls >>= fun result => onNode (rest result) :=
  Program.embed_bind _ _ _ _

def serveLetter (node : Site) (memory : Nat → Uninitialized) (reads : Nat) :
    NetAnswer → Program (NetCommand Node) NetAnswer NetResult
  | .taken (some letter) =>
      match readLetter forms (memory 0) letter with
      | some request => do
          let outcome ← onNode (handle node.config forms node.service memory reads request)
          pure (.handled outcome)
      | none => pure .nothing
  | _ => pure .nothing

def office (worker : Worker) : NetJob → Program (NetCommand Node) NetAnswer NetResult
  | .post letter => .issue (.post letter) fun _ => .finish .done
  | .drop place => .issue (.drop place) fun _ => .finish .done
  | .boot boot => do
      let node := site (desk worker)
      let started ← onNode (init node.config forms.toCereal node.service boot)
      pure (.booted started)
  | .serve place memory reads =>
      .issue (.take (desk worker) place) fun answer =>
        serveLetter forms (site (desk worker)) memory reads answer
  | .tick moment => do
      let node := site (desk worker)
      let left ← onNode (generateNewBlock node.config forms.toCereal node.service rand moment)
      pure (.ticked left)

variable [DecidableEq Worker]
variable (throws : Bytes → Bool) (fate : Nat → Fate) (hears : Node → Bytes → Bool)

/-- The network once everything of a schedule has happened. -/
def networkAfter (servers : Servers) (schedule : List (Choice Worker NetJob)) :
    Pool Worker NetJob (NetCommand Node) NetAnswer NetResult Network :=
  runPool (network throws fate hears) (office forms rand site desk) (idle ⟨servers, [], 0⟩) schedule

end Work

/-! Which commands a node issues. -/

/-- Every command of a node but for what a transaction leads to. -/
def Plain : Effect → Prop
  | .redis _ (.rpush _ _) => False
  | .redis _ _ => True
  | .sendTo _ uri _ => uri ≠ Transaction.uri

/-- Nor what a new block leads to. -/
def Quiet : Effect → Prop
  | .redis _ (.rpush _ _) => False
  | .redis _ _ => True
  | .sendTo _ uri _ => uri ≠ Transaction.uri ∧ uri ≠ Block.uri

def isAppend : RedisServer.Command → Bool
  | .rpush _ _ => true
  | _ => false

/-- Enough for all that a node does apart from transactions and new blocks. -/
structure Allows (config : Config) (holds : Effect → Prop) : Prop where
  cache : ∀ command, isAppend command = false → holds (.redis config.cacheService command)
  block : ∀ command, isAppend command = false → holds (.redis config.dbService command)
  login : ∀ ipport body, holds (.sendTo ipport NodeInfo.uri body)

theorem plain_of_quiet (effect : Effect) (quiet : Quiet effect) : Plain effect := by
  cases effect with
  | sendTo ipport uri body => exact quiet.1
  | redis service command => cases command <;> exact quiet

theorem quiet_allows (config : Config) : Allows config Quiet where
  cache command aside := by cases command <;> first | exact trivial | cases aside
  block command aside := by cases command <;> first | exact trivial | cases aside
  login _ _ := show NodeInfo.uri ≠ Transaction.uri ∧ NodeInfo.uri ≠ Block.uri by decide

theorem plain_allows (config : Config) : Allows config Plain where
  cache command aside := plain_of_quiet _ ((quiet_allows config).cache command aside)
  block command aside := plain_of_quiet _ ((quiet_allows config).block command aside)
  login ipport body := plain_of_quiet _ ((quiet_allows config).login ipport body)

theorem block_plain (ipport body : Bytes) : Plain (.sendTo ipport Block.uri body) :=
  show Block.uri ≠ Transaction.uri by decide

section Issues
variable (config : Config) (forms : Forms) (node : FPService) (holds : Effect → Prop)

theorem forward_form (cereal : Cereal) (tx : Transaction) :
    forward cereal node tx =
      if (!node._routeTarget || node._parentNode.isEmpty) = true then .finish (.ok false)
      else .issue (.sendTo node._parentNode Transaction.uri (cereal.transaction.toString tx))
        fun answer => .finish (if answer = .threw then .error .sendTo else .ok true) := by
  simp only [forward]
  split
  · rfl
  · simp only [Program.perform_bind]
    congr 1
    funext answer
    cases answer <;> rfl

theorem queryBalance_issues (userId : Bytes) (value : Int64)
    (one : holds (.redis config.cacheService (.get userId))) :
    (queryBalance config userId value).Issues holds := by
  refine Program.issues_bind holds _ _ (get_issues holds _ _ _ one) ?_
  rintro ⟨found, val⟩
  dsimp only
  split <;> exact trivial

/-- A request that is no transaction reads records and adds children. -/
theorem handle_issues (memory : Nat → Uninitialized) (reads : Nat) (request : Request)
    (other : ∀ tx, request ≠ .transaction tx)
    (asked : ∀ key, holds (.redis config.cacheService (.get key)))
    (read : ∀ key, holds (.redis config.dbService (.get key)))
    (added : ∀ member, holds (.redis config.cacheService (.sadd config.childNodesKey member))) :
    (handle config forms node memory reads request).Issues holds := by
  cases request with
  | query req =>
      refine Program.issues_bind holds _ _ (Program.issues_bind holds _ _
        (get_issues holds _ _ _ (asked _)) ?_) fun _ => trivial
      rintro ⟨found, balance⟩
      dsimp only
      split <;> exact trivial
  | node req =>
      refine Program.issues_bind holds _ _ (Program.issues_bind holds _ _ ?_ ?_) fun _ => trivial
      · rw [handleLogin]
        split
        · exact trivial
        · exact addToSet_issues holds _ _ _ (added _)
      · intro stored
        split <;> exact trivial
  | transaction tx => exact absurd rfl (other tx)
  | block req =>
      refine Program.issues_bind holds _ _ (Program.issues_bind holds _ _ ?_ ?_) fun _ => trivial
      · rw [handleBlockArrived]
        split <;> exact trivial
      · intro arrived
        split <;> exact trivial
  | syncRequest req =>
      exact Program.issues_bind holds _ _ (Program.issues_bind holds _ _
        (queryBlockChain_issues config _ holds _ _ _ _ read) fun _ => trivial) fun _ => trivial
  | syncResponse req =>
      have arrives : (arriveAll node req._blockList).Issues holds := by
        induction req._blockList with
        | nil => exact trivial
        | cons block rest ih =>
            refine Program.issues_bind holds _ _ ?_ ?_
            · rw [handleBlockArrived]
              split <;> exact trivial
            · intro arrived
              split
              · exact ih
              · exact trivial
      refine Program.issues_bind holds _ _ (Program.issues_bind holds _ _ arrives ?_)
        fun _ => trivial
      intro arrived
      split <;> exact trivial

theorem storeBlock_issues (cereal : Cereal) (block : Block)
    (one : ∀ key value duration, holds (.redis config.dbService (.set key value duration .always))) :
    (storeBlock config cereal block).Issues holds := by
  rw [storeBlock]
  split
  · exact trivial
  · exact set_issues holds _ _ _ _ (one _ _ _)

theorem sendAll_issues (cereal : Cereal) (block : Block) (nodes : List Bytes)
    (sent : ∀ ipport body, holds (.sendTo ipport Block.uri body)) :
    (sendAll cereal block nodes).Issues holds := by
  induction nodes with
  | nil => exact trivial
  | cons nodeStr nodes ih =>
      rw [sendAll]
      split
      · exact ih
      · refine ⟨sent _ _, fun answer => ?_⟩
        cases answer with
        | threw => exact trivial
        | _ => exact ih

variable (allows : Allows config holds)
include allows

theorem releaseLock_allowed (lock : Bytes) : (releaseLock config node lock).Issues holds :=
  ReplayStages.releaseLock_issues config holds node lock (allows.cache _ rfl) (allows.cache _ rfl)

theorem generateNewBlock_issues (cereal : Cereal) (rand : UInt32 → Nat → Nat) (moment : Moment)
    (sent : ∀ ipport body, holds (.sendTo ipport Block.uri body)) :
    (generateNewBlock config cereal node rand moment).Issues holds := by
  rw [generateNewBlock]
  split
  · exact trivial
  · refine Program.issues_bind _ _ _ (setNX_issues holds _ _ _ (allows.cache _ rfl)) fun locked => ?_
    split
    · exact trivial
    · refine Program.issues_bind _ _ _ ?_ ?_
      · refine Program.issues_bind _ _ _ (getBlock_issues config _ holds _ _ (allows.block _ rfl)) ?_
        rintro ⟨_, lastBlock⟩
        refine Program.issues_bind _ _ _ (deQueueAll_issues holds _ _ _ (allows.cache _ rfl)
          (allows.cache _ rfl)) ?_
        rintro ⟨drained, txList⟩
        dsimp only
        split
        · exact trivial
        · split
          · exact trivial
          · refine Program.issues_bind _ _ _
              (storeBlock_issues config holds _ _ fun _ _ _ => allows.block _ rfl) fun _ => ?_
            exact Program.issues_bind _ _ _
              (storeBlock_issues config holds _ _ fun _ _ _ => allows.block _ rfl) fun _ => trivial
      · rintro ⟨created, block⟩
        dsimp only
        split
        · refine Program.issues_bind _ _ _ ?_ ?_
          · refine Program.issues_bind _ _ _ ?_ ?_
            · rw [getMembers_form]
              refine ⟨allows.cache _ rfl, fun answer => ?_⟩
              dsimp only
              cases itemsOf answer <;> exact trivial
            · rintro ⟨found, childNodes⟩
              dsimp only
              split
              · exact trivial
              · exact sendAll_issues holds _ _ _ sent
          · intro left
            cases left with
            | error thrown => exact trivial
            | ok sent =>
                exact Program.issues_bind _ _ _ (releaseLock_allowed config node holds allows _) fun _ => trivial
        · exact Program.issues_bind _ _ _ (releaseLock_allowed config node holds allows _) fun _ => trivial

theorem initLogin_issues (cereal : Cereal) : (initLogin config cereal node).Issues holds := by
  rw [initLogin]
  split
  · refine Program.issues_bind _ _ _ (setNX_issues holds _ _ _ (allows.cache _ rfl)) fun locked => ?_
    split
    · refine Program.issues_bind _ _ _ ?_ ?_
      · rw [login]
        split
        · exact trivial
        · exact ⟨allows.login _ _, fun answer => by cases answer <;> exact trivial⟩
      · intro left
        cases left with
        | error thrown => exact trivial
        | ok loginSuccess =>
            exact Program.issues_bind _ _ _ (releaseLock_allowed config node holds allows _) fun _ => trivial
    · exact trivial
  · exact trivial

theorem init_issues (cereal : Cereal) (boot : Boot) :
    (init config cereal node boot).Issues holds := by
  have balances : ∀ node : FPService, (initBalances config cereal node boot).Issues holds := by
    intro node
    rw [initBalances]
    refine Program.issues_bind _ _ _ (setNX_issues holds _ _ _ (allows.cache _ rfl)) fun first => ?_
    split
    · refine Program.issues_bind _ _ _ (initBalance_issues config _ holds _ _ _
      (fun _ => allows.block _ rfl) fun _ _ => allows.cache _ rfl)
        fun replayed => ?_
      cases replayed with
      | none => exact trivial
      | some _ => exact initLogin_issues config node holds allows cereal
    · exact initLogin_issues config node holds allows cereal
  rw [init]
  split
  · exact trivial
  · split
    · exact trivial
    · refine Program.issues_bind _ _ _ (releaseLock_allowed config _ holds allows _) fun _ => ?_
      rw [initSync]
      split
      · refine Program.issues_bind _ _ _ (ReplayStages.acquireLock_issues config holds _ _
          (allows.cache _ rfl) _) fun acquired => ?_
        split
        · refine Program.issues_bind _ _ _ (ReplayStages.syncBlockChain_issues config cereal holds _
            (allows.block _ rfl)) fun synced => ?_
          refine Program.issues_bind _ _ _ (releaseLock_allowed config _ holds allows _) fun _ => ?_
          split
          · exact trivial
          · exact balances _
        · exact trivial
      · exact balances _

omit allows in
theorem handleTransaction_issues (cereal : Cereal) (tx : Transaction)
    (asked : ∀ key, holds (.redis config.cacheService (.get key)))
    (moved : node._nodeRole = .root → ∀ key increment,
      holds (.redis config.cacheService (.incrBy key increment)))
    (appended : node._nodeRole = .root → ∀ text,
      holds (.redis config.cacheService (.rpush config.txPoolKey [text])))
    (sent : ∀ ipport body, holds (.sendTo ipport Transaction.uri body)) :
    (handleTransaction config cereal node tx).Issues holds := by
  refine Program.issues_bind _ _ _ (queryBalance_issues config holds _ _ (asked _)) ?_
  rintro ⟨found, balance⟩
  dsimp only
  split
  · exact trivial
  · cases role : node._nodeRole with
    | none => exact trivial
    | miner =>
        dsimp only
        rw [forward_form]
        split
        · exact trivial
        · exact ⟨sent _ _, fun _ => trivial⟩
    | root =>
        have pushes : (if (cereal.transaction.toString tx).isEmpty = true then pure (.ok false)
            else do
              let _ ← enQueue config.cacheService config.txPoolKey (cereal.transaction.toString tx)
              pure (.ok true) : Calls (Except Thrown Bool)).Issues holds := by
          split
          · exact trivial
          · exact Program.issues_bind _ _ _ (enQueue_issues holds _ _ _ (appended role _))
              fun _ => trivial
        dsimp only
        split
        · refine Program.issues_bind _ _ _ (incrBy_issues holds _ _ _ _ (moved role _ _))
            fun _ => ?_
          exact Program.issues_bind _ _ _ (incrBy_issues holds _ _ _ _ (moved role _ _))
            fun _ => pushes
        · exact pushes

end Issues

/-! A root and its miner, each with services of its own. -/

def minerConf : Config :=
  { minerServerConf with
    dbService := ascii "127.0.0.1:26379"
    cacheService := ascii "127.0.0.1:26379" }

def minerService : FPService :=
  ⟨ascii "2", [], ascii "127.0.0.1:9080", .miner, minerConf.parentNode, true⟩

/-- `true` is the root. -/
def rootAndMiner : Bool → Site
  | true => ⟨rootServerConf, rootService⟩
  | false => ⟨minerConf, minerService⟩

def ownAddress (node : Bool) (ipport : Bytes) : Bool :=
  ipport = (rootAndMiner node).service._hostport

def quietMoment : Moment := ⟨0, 0, fun _ => ⟨0, 0⟩⟩

end FPayNode.NodeNetwork
