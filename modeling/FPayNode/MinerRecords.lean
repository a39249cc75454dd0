import FPayNode.NodeNetwork

/-!
The records of a miner once it has started. It takes part in the network, but
blocks that arrive leave no trace with it, and transactions are sent on: nothing
but its set of child nodes ever changes, so that its answers do not either.
-/

namespace FPayNode.MinerRecords

open CommandProgram WorkerPool DecimalText RedisServer RedisCache Messages NodeService
open NodeRequests RequestJson NodeNetwork

section Records
variable {Worker Node : Type} (forms : Forms) (rand : UInt32 → Nat → Nat)
variable (site : Node → Site) (desk : Worker → Node)
variable (throws : Bytes → Bool) (fate : Nat → Fate) (hears : Node → Bytes → Bool)
variable (observed key : Bytes)

/-- The node has its records on the service. -/
def Uses (node : Site) : Prop :=
  node.config.cacheService = observed ∨ node.config.dbService = observed

/-- Only miners use the service, and the record is not a set of child nodes. -/
def MinersOnly : Prop :=
  ∀ node, Uses observed (site node) →
    (site node).service._nodeRole = .miner ∧ (site node).config.childNodesKey ≠ key

/-- The command leaves the record alone. -/
def Leaves : Effect → Prop
  | .redis service command =>
      service = observed → ∀ db, (exec command db).2.lookup key = db.lookup key
  | .sendTo _ _ _ => True

/-- No node that uses the service starts up. -/
def Started : Choice Worker NetJob → Prop
  | .start worker (.boot _) => ¬ Uses observed (site (desk worker))
  | _ => True

theorem get_leaves (service name : Bytes) : Leaves observed key (.redis service (.get name)) :=
  fun _ db => by rw [exec_get_db]

/-- Whoever does not use the service leaves it alone. -/
theorem apart_leaves (node : Site) (apart : ¬ Uses observed node) :
    (∀ command, Leaves observed key (.redis node.config.cacheService command)) ∧
      ∀ command, Leaves observed key (.redis node.config.dbService command) :=
  ⟨fun _ same => absurd (Or.inl same) apart, fun _ same => absurd (Or.inr same) apart⟩

theorem apart_allows (node : Site) (apart : ¬ Uses observed node) :
    Allows node.config (Leaves observed key) where
  cache command _ := (apart_leaves observed key node apart).1 command
  block command _ := (apart_leaves observed key node apart).2 command
  login _ _ := trivial

theorem handle_leaves (node : Site)
    (miner : Uses observed node → node.service._nodeRole = .miner ∧ node.config.childNodesKey ≠ key)
    (memory : Nat → Uninitialized) (reads : Nat) (request : Request) :
    (handle node.config forms node.service memory reads request).Issues (Leaves observed key) := by
  have read := fun service name => get_leaves observed key service name
  by_cases payment : ∃ tx, request = .transaction tx
  · obtain ⟨tx, rfl⟩ := payment
    -- Only a root, which is elsewhere, moves balances and appends.
    have away : node.service._nodeRole = .root →
        ∀ command, Leaves observed key (.redis node.config.cacheService command) := by
      intro root command
      refine (apart_leaves observed key node fun uses => ?_).1 command
      rw [root] at miner
      cases (miner uses).1
    have handled := handleTransaction_issues node.config node.service (Leaves observed key)
      forms.toCereal tx (read _) (fun root _ _ => away root _) (fun root _ => away root _)
      fun _ _ => trivial
    refine Program.issues_bind _ _ _ (Program.issues_bind _ _ _ handled fun left => ?_)
      fun _ => trivial
    cases left <;> exact trivial
  · refine handle_issues node.config forms node.service _ memory reads request
      (fun tx same => payment ⟨tx, same⟩) (read _) (read _) fun member same db => ?_
    exact exec_sadd_other db _ key member (miner (.inl same)).2.symm

theorem generateNewBlock_leaves (node : Site)
    (miner : Uses observed node → node.service._nodeRole = .miner ∧ node.config.childNodesKey ≠ key)
    (moment : Moment) :
    (generateNewBlock node.config forms.toCereal node.service rand moment).Issues
      (Leaves observed key) := by
  by_cases uses : Uses observed node
  · rw [generateNewBlock, if_pos (by rw [(miner uses).1]; decide)]
    exact trivial
  · exact generateNewBlock_issues _ _ _ (apart_allows observed key node uses) _ _ _
      fun _ _ => trivial

/-! A whole run. -/

def LeavesAlone : NetCommand Node → Prop
  | .act effect => Leaves observed key effect
  | _ => True

theorem onNode_leaves {Result : Type} (calls : Calls Result)
    (issues : calls.Issues (Leaves observed key)) :
    (onNode calls : Program (NetCommand Node) NetAnswer Result).Issues (LeavesAlone observed key) :=
  Program.issues_embed _ _ _ _ issues

theorem office_leaves (miners : MinersOnly site observed key) (worker : Worker) (job : NetJob)
    (started : ∀ boot, job = .boot boot → ¬ Uses observed (site (desk worker))) :
    (office forms rand site desk worker job).Issues (LeavesAlone observed key) := by
  cases job with
  | post letter => exact ⟨trivial, fun _ => trivial⟩
  | drop place => exact ⟨trivial, fun _ => trivial⟩
  | boot boot =>
      exact Program.issues_bind _ _ _ (onNode_leaves observed key _ (init_issues _ _ _
        (apart_allows observed key _ (started boot rfl)) _ boot)) fun _ => trivial
  | tick moment =>
      exact Program.issues_bind _ _ _ (onNode_leaves observed key _ (generateNewBlock_leaves forms
        rand observed key (site (desk worker)) (miners _) moment)) fun _ => trivial
  | serve place memory reads =>
      refine ⟨trivial, fun answer => ?_⟩
      rcases answer with answer | _ | letter
      · exact trivial
      · exact trivial
      cases letter with
      | none => exact trivial
      | some letter =>
          simp only [serveLetter]
          cases readLetter forms (memory 0) letter with
          | none => exact trivial
          | some request =>
              exact Program.issues_bind _ _ _ (onNode_leaves observed key _ (handle_leaves forms
                observed key (site (desk worker)) (miners _) memory reads request)) fun _ => trivial

theorem network_leaves (command : NetCommand Node) (net : Network)
    (leaves : LeavesAlone observed key command) :
    ((network throws fate hears command net).2.servers observed).lookup key =
      (net.servers observed).lookup key := by
  cases command with
  | act effect =>
      cases effect with
      | sendTo ipport uri body =>
          simp only [network]
          split <;> rfl
      | redis service command =>
          rcases (network_redis_cases throws fate hears service command net).1 with same | served
          · rw [same]
          · rw [served]
            exact serve_lookup_apart throws net.servers observed service key command
              fun same => leaves same.symm
  | post letter => rfl
  | take node place =>
      rcases network_take_cases throws fate hears node place net with same | ⟨_, _, _, same⟩ <;>
        rw [same]
  | drop place => rfl

/-- Every `GET` of the record that was answered was answered as at the start. -/
def Told (start : Servers) (history : List (NetEvent Worker Node)) : Prop :=
  ∀ worker job before reply, .executed worker job before
    (.act (.redis observed (.get key))) (.act (.reply reply)) ∈ history →
    reply = (exec (.get key) (start observed)).1

theorem exec_get_same (db other : Db) (same : db.lookup key = other.lookup key) :
    (exec (.get key) db).1 = (exec (.get key) other).1 := by
  simp only [exec, same]
  rcases other.lookup key with _ | _ | _ | _ <;> rfl

variable [DecidableEq Worker]

theorem records_keep (start : Servers) :
    (Discipline.only (LeavesAlone observed key) : Discipline Worker NetJob (NetCommand Node)
      NetAnswer Unit).Keeps (network throws fate hears) (fun _ (_ : NetResult) => True)
      (fun _ choice => Started site desk observed choice)
      (fun net _ history => (net.servers observed).lookup key = (start observed).lookup key ∧
        Told observed key start history) where
  begins _ _ _ _ _ before := before
  issues pool worker call command next _ _ allowed _ before := by
    obtain ⟨record, told⟩ := before
    refine ⟨(network_leaves throws fate hears observed key command pool.shared allowed).trans record,
      fun other job done reply member => ?_⟩
    rcases List.mem_append.mp member with old | new
    · exact told other job done reply old
    · obtain ⟨-, -, -, asked, answered⟩ := Event.executed.inj (List.mem_singleton.mp new)
      subst asked
      rcases (network_redis_cases throws fate hears observed (.get key) pool.shared).2.2 with
        lost | served
      · rw [lost] at answered
        cases answered
      · rw [served] at answered
        cases answered
        exact exec_get_same key _ _ record
  returns shared phases history worker job phase result _ _ before := by
    refine ⟨before.1, fun other earlier done reply member => ?_⟩
    rcases List.mem_append.mp member with old | new
    · exact before.2 other earlier done reply old
    · cases List.mem_singleton.mp new

/-- The records of a service that only miners use stay as they are, but for the
sets of child nodes: no order of arriving blocks, transactions and ticks changes
one, and whoever asks for it gets the same answer throughout. -/
theorem miner_records_stay (miners : MinersOnly site observed key) (servers : Servers)
    (schedule : List (Choice Worker NetJob))
    (started : ∀ choice ∈ schedule, Started site desk observed choice) :
    let after := networkAfter forms rand site desk throws fate hears servers schedule
    (after.shared.servers observed).lookup key = (servers observed).lookup key ∧
      Told observed key servers after.history :=
  (Discipline.run_keeps (records_keep site desk throws fate hears observed key servers)
    (fun _ worker job starts => Discipline.only_follows _ _ (office_leaves forms rand site desk
      observed key miners worker job fun boot same => by rw [same] at starts; exact starts))
    (idle ⟨servers, [], 0⟩) schedule (along_of_forall _ _ _ _ _ started)
    (Discipline.idle_tracked _) ⟨rfl, fun _ _ _ _ member => absurd member List.not_mem_nil⟩).2

end Records

/-! A block with a payment to Bob reaches the miner, and then his balance is
asked for. -/

def withPayment : Block := ⟨ascii "b1", [], [], 0, [⟨ascii "t1", ascii "alice", ascii "bob", 3, 0⟩]⟩

def blockThenQuery : List (Choice Bool NetJob) :=
  [.start true (.post ⟨minerService._hostport, Block.uri, nodeForms.block.toString withPayment⟩),
    .advance true, .start false (.serve 0 (fun _ => ⟨0, 0⟩) 0), .advance false,
    .start true (.post ⟨minerService._hostport, QueryBalance.uri,
      nodeForms.query.toString ⟨ascii "bob"⟩⟩),
    .advance true, .start false (.serve 0 (fun _ => ⟨0, 0⟩) 0), .advance false, .advance false]

theorem rootAndMiner_minersOnly : MinersOnly rootAndMiner minerConf.cacheService (ascii "bob") := by
  intro node uses
  cases node with
  | true => exact absurd uses (by unfold Uses; decide +kernel)
  | false => exact ⟨rfl, by decide +kernel⟩

def bobHas : Servers := fun _ => (∅ : Db).insert (ascii "bob") (.string (ascii "20"))

/-- Bob's balance was read, and the read was answered. -/
def readsBob : NetEvent Bool Bool → Bool
  | .executed _ _ _ (.act (.redis service (.get key))) (.act (.reply _)) =>
      service = minerConf.cacheService && key = ascii "bob"
  | _ => false

theorem readsBob_cases (event : NetEvent Bool Bool) (reads : readsBob event = true) :
    ∃ worker job before reply, event = .executed worker job before
      (.act (.redis minerConf.cacheService (.get (ascii "bob")))) (.act (.reply reply)) := by
  unfold readsBob at reads
  split at reads
  · next worker job before service key reply =>
      obtain ⟨rfl, rfl⟩ : service = minerConf.cacheService ∧ key = ascii "bob" := by
        simpa using reads
      exact ⟨worker, job, before, reply, rfl⟩
  · cases reads

theorem miner_records_stay_blockThenQuery :
    let after := networkAfter nodeForms (fun _ _ => 0) rootAndMiner id (fun _ => false)
      (fun _ => .answered) ownAddress bobHas blockThenQuery
    (after.shared.servers minerConf.cacheService).lookup (ascii "bob") =
        some (.string (ascii "20")) ∧
      ∃ worker job before, .executed worker job before
          (.act (.redis minerConf.cacheService (.get (ascii "bob"))))
          (.act (.reply (.string (ascii "20")))) ∈ after.history := by
  obtain ⟨record, told⟩ := miner_records_stay nodeForms (fun _ _ => 0) rootAndMiner id
    (fun _ => false) (fun _ => .answered) ownAddress minerConf.cacheService (ascii "bob")
    rootAndMiner_minersOnly bobHas blockThenQuery (by
      intro choice member
      simp only [blockThenQuery, List.mem_cons, List.not_mem_nil, or_false] at member
      rcases member with rfl | rfl | rfl | rfl | rfl | rfl | rfl | rfl | rfl <;> exact trivial)
  have read : (networkAfter nodeForms (fun _ _ => 0) rootAndMiner id (fun _ => false)
      (fun _ => .answered) ownAddress bobHas blockThenQuery).history.any readsBob = true := by
    decide +kernel
  obtain ⟨event, member, reads⟩ := List.any_eq_true.mp read
  obtain ⟨worker, job, before, reply, rfl⟩ := readsBob_cases event reads
  have answered : reply = .string (ascii "20") := told worker job before reply member
  exact ⟨record.trans (Finmap.lookup_insert _), worker, job, before, answered ▸ member⟩

end FPayNode.MinerRecords
