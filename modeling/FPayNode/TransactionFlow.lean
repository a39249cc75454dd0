import FPayNode.NodeNetwork

/-!
The way of a transaction through the network: a miner forwards it, a root
appends it to its pool. Whatever the order in which workers execute their
commands, and whatever gets lost, nothing makes a second transaction out of one.
-/

namespace FPayNode.TransactionFlow

open CommandProgram WorkerPool Budgets DecimalText RedisServer RedisCache Messages NodeService
open NodeRequests RequestJson BlockSync NodeNetwork

section Flow
variable {Worker Node : Type} (forms : Forms) (rand : UInt32 → Nat → Nat)
variable (site : Node → Site) (desk : Worker → Node)
variable (throws : Bytes → Bool) (fate : Nat → Fate) (hears : Node → Bytes → Bool)

/-- The transaction in a letter, as a node loads it. -/
def paymentIn (letter : Letter) : Option Transaction :=
  if letter.uri = Transaction.uri then
    load forms.transaction (Transaction.fresh ⟨0, 0⟩) letter.body
  else none

theorem readLetter_payment (fills : FillsAll forms) (memory : Uninitialized) (letter : Letter)
    (tx : Transaction) :
    readLetter forms memory letter = some (.transaction tx) ↔ paymentIn forms letter = some tx := by
  by_cases transaction : letter.uri = Transaction.uri
  · have entry : formHandle forms memory letter.uri = some fun up =>
        (load forms.transaction (Transaction.fresh memory) up).map .transaction := by
      rw [transaction]
      rfl
    rw [readLetter, entry, paymentIn, if_pos transaction,
      load_steady _ fills.transaction (Transaction.fresh ⟨0, 0⟩) (Transaction.fresh memory)]
    simp
  · -- No other entry makes a transaction.
    simp only [readLetter, paymentIn, formHandle, transaction, ↓reduceIte, reduceCtorEq, iff_false]
    repeat' split
    all_goals simp

/-- A forwarded transaction is read as it was. -/
theorem paymentIn_forwarded (lawful : Lawful forms) (letter : Letter) (tx : Transaction)
    (read : paymentIn forms letter = some tx) (ipport : Bytes) :
    paymentIn forms ⟨ipport, Transaction.uri, forms.transaction.toString tx⟩ = some tx := by
  simp only [paymentIn, load] at read
  split at read
  · split at read
    · cases read
      have clean := lawful.cereal.transaction.loaded letter.body (Transaction.fresh ⟨0, 0⟩)
        (Transaction.fresh_clean _)
      simp [paymentIn, load, lawful.cereal.transaction.round _ _ clean]
    · cases read
  · cases read

/-! What a flow of transactions weighs. -/

/-- The weight of a letter, of one value appended to a list, and of one hop. -/
structure Flow where
  weight : Letter → Nat
  append : Bytes → Nat
  hop : Nat

namespace Flow
variable (flow : Flow)

def price : NetCommand Node → Nat
  | .act (.sendTo ipport uri body) =>
      if uri = Transaction.uri then flow.hop + flow.weight ⟨ipport, uri, body⟩ else 0
  | .act (.redis _ (.rpush _ values)) => (values.map flow.append).sum
  | _ => 0

def spent : NetCommand Node → NetAnswer → Nat
  | .act (.sendTo _ uri _), _ => if uri = Transaction.uri then flow.hop else 0
  | .act (.redis _ (.rpush _ values)), _ => (values.map flow.append).sum
  | _, _ => 0

/-- What a node pays for the transaction in a letter. -/
def need (node : Node) (letter : Letter) : Nat :=
  match paymentIn forms letter with
  | none => 0
  | some tx =>
      match (site node).service._nodeRole with
      | .miner => flow.hop + flow.weight ⟨(site node).service._parentNode, Transaction.uri,
          forms.transaction.toString tx⟩
      | .root => flow.append (forms.transaction.toString tx)
      | .none => 0

/-- A letter that a node cannot hear brings whatever the node would need: no
machine answers so. -/
def gain : NetCommand Node → NetAnswer → Nat
  | .take node _, .taken (some letter) =>
      if hears node letter.ipport then flow.weight letter else flow.need forms site node letter
  | _, _ => 0

def granted : NetCommand Node → NetAnswer → Nat
  | .post letter, _ => flow.weight letter
  | _, _ => 0

def budget : Budget (NetCommand Node) NetAnswer Network where
  price := flow.price
  gain := flow.gain forms site hears
  spent := flow.spent
  granted := flow.granted
  stored net := (net.letters.map flow.weight).sum

theorem weight_eraseIdx (letters : List Letter) (place : Nat) (letter : Letter)
    (found : letters[place]? = some letter) :
    ((letters.eraseIdx place).map flow.weight).sum + flow.weight letter =
      (letters.map flow.weight).sum := by
  induction letters generalizing place with
  | nil => simp at found
  | cons first letters ih =>
      cases place with
      | zero =>
          rw [List.getElem?_cons_zero, Option.some.injEq] at found
          simp [found, Nat.add_comm]
      | succ place =>
          rw [List.getElem?_cons_succ] at found
          have rest := ih place found
          simp only [List.eraseIdx_cons_succ, List.map_cons, List.sum_cons]
          omega

theorem weight_eraseIdx_le (letters : List Letter) (place : Nat) :
    ((letters.eraseIdx place).map flow.weight).sum ≤ (letters.map flow.weight).sum := by
  cases found : letters[place]? with
  | none => rw [List.eraseIdx_of_length_le (List.getElem?_eq_none_iff.mp found)]
  | some letter =>
      have whole := flow.weight_eraseIdx letters place letter found
      omega

/-- Letters of other kinds carry no transaction. -/
def Kind : Prop := ∀ letter : Letter, letter.uri ≠ Transaction.uri → flow.weight letter = 0

theorem budget_balanced (kind : flow.Kind) :
    (flow.budget forms site hears).Balanced (network throws fate hears) := by
  intro command net
  cases command with
  | act effect =>
      cases effect with
      | redis service command =>
          have letters := (network_redis_cases throws fate hears service command net).2.1
          simp only [budget, letters]
          cases command with
          | rpush key values => simp [price, gain, spent, granted]
          | _ => simp [price, gain, spent, granted]
      | sendTo ipport uri body =>
          simp only [network]
          split
          · simp only [budget, gain, spent, granted, price]
            split <;> omega
          · simp only [budget, gain, spent, granted, price, List.map_append, List.map_cons,
              List.map_nil, List.sum_append, List.sum_cons, List.sum_nil]
            split
            · omega
            · next other =>
                rw [kind ⟨ipport, uri, body⟩ other]
                omega
  | post letter =>
      simp [network, budget, gain, spent, granted, price]
  | take node place =>
      rcases network_take_cases throws fate hears node place net with
        same | ⟨letter, found, heard, same⟩
      · rw [same]
        simp [budget, gain, spent, granted, price]
      · have whole := flow.weight_eraseIdx net.letters place letter found
        rw [same]
        simp only [budget, gain, spent, granted, price, heard, ↓reduceIte]
        omega
  | drop place =>
      have less := flow.weight_eraseIdx_le net.letters place
      simp only [network, budget, gain, spent, granted, price]
      omega

/-! What the nodes pay. -/

theorem plain_free (effect : Effect) (plain : Plain effect) :
    flow.price (.act effect : NetCommand Node) = 0 := by
  cases effect with
  | sendTo ipport uri body => exact if_neg plain
  | redis service command =>
      cases command with
      | rpush key values => exact plain.elim
      | _ => rfl

theorem costs_plain {Result : Type} (calls : Calls Result) (held : Nat)
    (plain : calls.Issues Plain) :
    Costs (fun effect => flow.price (.act effect : NetCommand Node)) calls held :=
  costs_free _ _ _ (Program.issues_mono _ _ _ flow.plain_free plain)

theorem costs_plain_bind {Result Final : Type} (calls : Calls Result)
    (rest : Result → Calls Final) (held : Nat) (plain : calls.Issues Plain)
    (after : ∀ result,
      Costs (fun effect => flow.price (.act effect : NetCommand Node)) (rest result) held) :
    Costs (fun effect => flow.price (.act effect : NetCommand Node)) (calls >>= rest) held :=
  costs_free_bind _ _ _ _ (Program.issues_mono _ _ _ flow.plain_free plain) after

/-- A miner sends the transaction once, a root appends it once. -/
theorem handleTransaction_costs (config : Config) (node : FPService) (tx : Transaction)
    (held : Nat)
    (forwards : node._nodeRole = .miner → flow.hop + flow.weight
      ⟨node._parentNode, Transaction.uri, forms.transaction.toString tx⟩ ≤ held)
    (appends : node._nodeRole = .root → flow.append (forms.transaction.toString tx) ≤ held) :
    Costs (fun effect => flow.price (.act effect : NetCommand Node))
      (handleTransaction config forms.toCereal node tx) held := by
  refine flow.costs_plain_bind _ _ held (queryBalance_issues config Plain _ _ trivial) ?_
  rintro ⟨found, balance⟩
  dsimp only
  split
  · exact trivial
  · cases role : node._nodeRole with
    | none => exact trivial
    | miner =>
        dsimp only
        rw [forward_form]
        split
        · exact trivial
        · refine ⟨?_, fun _ => trivial⟩
          simp only [price, ↓reduceIte]
          exact forwards role
    | root =>
        have pushes : Costs (fun effect => flow.price (.act effect : NetCommand Node))
            (if (forms.transaction.toString tx).isEmpty = true then pure (.ok false)
              else do
                let _ ← enQueue config.cacheService config.txPoolKey (forms.transaction.toString tx)
                pure (.ok true) : Calls (Except Thrown Bool)) held := by
          split
          · exact trivial
          · rw [enQueue_form]
            split
            · exact trivial
            · refine ⟨?_, fun _ => trivial⟩
              simp only [price, List.map_cons, List.map_nil, List.sum_cons, List.sum_nil,
                Nat.add_zero]
              exact appends role
        dsimp only
        split
        · refine flow.costs_plain_bind _ _ held (incrBy_issues Plain _ _ _ _ trivial) fun _ => ?_
          exact flow.costs_plain_bind _ _ held (incrBy_issues Plain _ _ _ _ trivial)
            fun _ => pushes
        · exact pushes

/-- What a request costs its node. -/
theorem handle_costs (fills : FillsAll forms) (node : Node) (memory : Nat → Uninitialized)
    (reads : Nat) (letter : Letter) (request : Request)
    (read : readLetter forms (memory 0) letter = some request) (held : Nat)
    (enough : flow.need forms site node letter ≤ held) :
    Costs (fun effect => flow.price (.act effect : NetCommand Node))
      (handle (site node).config forms (site node).service memory reads request) held := by
  by_cases payment : ∃ tx, request = .transaction tx
  · obtain ⟨tx, rfl⟩ := payment
    simp only [need, (readLetter_payment forms fills _ letter tx).mp read] at enough
    have handled : Costs (fun effect => flow.price (.act effect : NetCommand Node))
        (handleTransaction (site node).config forms.toCereal (site node).service tx) held :=
      flow.handleTransaction_costs forms _ _ tx held
        (fun role => by simpa only [role] using enough)
        (fun role => by simpa only [role] using enough)
    refine costs_bind _ _ _ held 0 (costs_bind _ _ _ held 0 handled fun left => ?_) fun _ => trivial
    cases left <;> exact trivial
  · exact flow.costs_plain _ _ (handle_issues _ _ _ Plain memory reads request
      (fun tx same => payment ⟨tx, same⟩) (fun _ => trivial) (fun _ => trivial) fun _ => trivial)

/-- A call that took a letter pays with what the letter brought. -/
theorem serveLetter_follows (fills : FillsAll forms) (node : Node)
    (memory : Nat → Uninitialized) (reads : Nat) (place : Nat) (answer : NetAnswer)
    (covers : ∀ node letter, hears node letter.ipport = true →
      flow.need forms site node letter ≤ flow.weight letter) :
    ((flow.budget forms site hears).purse :
        Discipline Worker NetJob (NetCommand Node) NetAnswer Nat).Follows (fun _ _ => True)
      (flow.gain forms site hears (.take node place) answer)
      (serveLetter forms (site node) memory reads answer) := by
  cases answer with
  | act answer => exact trivial
  | done => exact trivial
  | taken letter =>
      cases letter with
      | none => exact trivial
      | some letter =>
          have enough : flow.need forms site node letter ≤
              flow.gain forms site hears (.take node place) (.taken (some letter)) := by
            simp only [gain]
            split
            · next heard => exact covers node letter heard
            · exact Nat.le_refl _
          simp only [serveLetter]
          cases read : readLetter forms (memory 0) letter with
          | none => exact trivial
          | some request =>
              exact Discipline.follows_bind _ (fun _ _ => True) _ _ _ _
                (Budget.embed_follows _ _ _ (fun _ _ => rfl) _ _
                  (flow.handle_costs forms site fills node memory reads letter request read _
                    enough)) fun _ _ _ => trivial

theorem office_follows (fills : FillsAll forms) (worker : Worker) (job : NetJob)
    (covers : ∀ node letter, hears node letter.ipport = true →
      flow.need forms site node letter ≤ flow.weight letter) :
    ((flow.budget forms site hears).purse :
        Discipline Worker NetJob (NetCommand Node) NetAnswer Nat).Follows (fun _ _ => True) 0
      (office forms rand site desk worker job) := by
  cases job with
  | post letter => exact ⟨Nat.zero_le _, fun _ => trivial⟩
  | drop place => exact ⟨Nat.zero_le _, fun _ => trivial⟩
  | boot boot =>
      exact Discipline.follows_bind _ (fun _ _ => True) _ _ _ _
        (Budget.embed_follows _ _ _ (fun _ _ => rfl) _ _
          (flow.costs_plain _ _ (init_issues _ _ _ (plain_allows _) _ _))) fun _ _ _ => trivial
  | serve place memory reads =>
      refine ⟨Nat.zero_le _, fun answer => ?_⟩
      rw [Budget.purse_next]
      exact Nat.zero_add (flow.gain forms site hears (.take (desk worker) place) answer) ▸
        flow.serveLetter_follows forms site hears fills (desk worker) memory reads place answer covers
  | tick moment =>
      exact Discipline.follows_bind _ (fun _ _ => True) _ _ _ _
        (Budget.embed_follows _ _ _ (fun _ _ => rfl) _ _
          (flow.costs_plain _ _ (generateNewBlock_issues _ _ _ (plain_allows _) _ _ _ block_plain))) fun _ _ _ => trivial

section Run
variable [Fintype Worker] [DecidableEq Worker]

/-- A flow that every node can pay for is not more in the end than what wallets
put in. -/
theorem flow_bound (fills : FillsAll forms) (kind : flow.Kind)
    (covers : ∀ node letter, hears node letter.ipport = true →
      flow.need forms site node letter ≤ flow.weight letter)
    (servers : Servers) (schedule : List (Choice Worker NetJob)) :
    Budget.tally flow.spent
        (networkAfter forms rand site desk throws fate hears servers schedule).history +
      ((networkAfter forms rand site desk throws fate hears servers schedule).shared.letters.map
        flow.weight).sum ≤
      Budget.tally flow.granted
        (networkAfter forms rand site desk throws fate hears servers schedule).history := by
  have within := (flow.budget forms site hears).spent_le_granted (network throws fate hears)
    (office forms rand site desk) (flow.budget_balanced forms site throws fate hears kind)
    (fun worker job => flow.office_follows forms rand site desk hears fills worker job covers)
    ⟨servers, [], 0⟩ schedule
  have nothing : (flow.budget forms site hears).stored ⟨servers, [], 0⟩ = 0 := rfl
  rw [nothing, Nat.zero_add] at within
  exact within

end Run
end Flow

/-! One transaction. -/

/-- The letter carries the transaction that is written as `text`. -/
def Carries (text : Bytes) (letter : Letter) : Prop :=
  (paymentIn forms letter).map forms.transaction.toString = some text

instance (text : Bytes) (letter : Letter) : Decidable (Carries forms text letter) :=
  inferInstanceAs (Decidable (_ = _))

/-- How often it was handed in by a wallet. -/
def submitted (text : Bytes) (history : List (NetEvent Worker Node)) : Nat :=
  Budget.tally (fun
    | .post letter, _ => if Carries forms text letter then 1 else 0
    | _, _ => 0) history

def appends (text : Bytes) : NetCommand Node → NetAnswer → Nat
  | .act (.redis _ (.rpush _ values)), _ => values.count text
  | _, _ => 0

/-- How often an append of it was attempted, to whatever list. -/
def appended (text : Bytes) (history : List (NetEvent Worker Node)) : Nat :=
  Budget.tally (appends text) history

def carrying (text : Bytes) : Flow where
  weight letter := if Carries forms text letter then 1 else 0
  append value := if value = text then 1 else 0
  hop := 0

theorem carrying_kind (text : Bytes) : (carrying forms text).Kind := by
  intro letter other
  simp [carrying, Carries, paymentIn, other]

theorem carrying_covers (lawful : Lawful forms) (text : Bytes) (node : Node) (letter : Letter) :
    (carrying forms text).need forms site node letter ≤ (carrying forms text).weight letter := by
  simp only [Flow.need]
  cases carried : paymentIn forms letter with
  | none => exact Nat.zero_le _
  | some tx =>
      cases (site node).service._nodeRole with
      | none => exact Nat.zero_le _
      | miner =>
          have same := paymentIn_forwarded forms lawful letter tx carried
            (site node).service._parentNode
          simp [carrying, Carries, same, carried]
      | root => simp [carrying, Carries, carried]

theorem carrying_spent (text : Bytes) (command : NetCommand Node) (answer : NetAnswer) :
    (carrying forms text).spent command answer = appends text command answer := by
  cases command with
  | act effect =>
      cases effect with
      | sendTo ipport uri body => simp [Flow.spent, appends, carrying]
      | redis service command =>
          cases command with
          | rpush key values =>
              simp only [Flow.spent, appends, carrying, Budget.sum_indicator, List.count_eq_countP]
              congr 1
              funext value
              exact (beq_eq_decide value text).symm
          | _ => rfl
  | _ => rfl

/-! Records that are lists. -/

def copies (text : Bytes) (db : Db) (key : Bytes) : Nat := (itemsIn (db.lookup key)).count text

/-- Only an append adds to a list. -/
theorem exec_copies (text : Bytes) (command : RedisServer.Command) (db : Db) (key : Bytes) :
    copies text (exec command db).2 key ≤ copies text db key +
      match command with
      | .rpush _ values => values.count text
      | _ => 0 := by
  have written : ∀ other value, itemsIn (some value) = [] →
      copies text (db.insert other value) key ≤ copies text db key := by
    intro other value empty
    by_cases same : key = other
    · subst same
      rw [copies, Finmap.lookup_insert, empty]
      exact Nat.zero_le _
    · rw [copies, Finmap.lookup_insert_of_ne _ same, copies]
  cases command with
  | get other => rw [exec_get_db]; exact Nat.le_add_right _ _
  | lrange other start stop => rw [exec_lrange_db]; exact Nat.le_add_right _ _
  | smembers other => rw [exec_smembers_db]; exact Nat.le_add_right _ _
  | set other value duration condition =>
      simp only [exec]
      split
      · exact Nat.le_refl _
      · exact Nat.le_refl _
      · exact written other (.string value) rfl
  | del other =>
      by_cases same : key = other
      · subst same
        simp [exec, copies, itemsIn]
      · rw [copies, exec_del_other db other key same, copies]
        exact Nat.le_refl _
  | incrBy other increment =>
      simp only [exec]
      split
      · exact Nat.le_refl _
      · exact written other (.string _) rfl
  | sadd other member =>
      simp only [exec]
      split
      · exact written other (.set _) rfl
      · split
        · exact Nat.le_refl _
        · exact written other (.set _) rfl
      · exact Nat.le_refl _
  | rpush other values =>
      by_cases same : key = other
      · subst same
        simp only [exec, copies]
        split
        · next absent => simp [absent, itemsIn]
        · next items found => simp [found, itemsIn]
        · exact Nat.le_add_right _ _
      · rw [copies, exec_rpush_other db other key values same, copies]
        exact Nat.le_add_right _ _

theorem network_copies (text : Bytes) (command : NetCommand Node) (net : Network)
    (service key : Bytes) :
    copies text ((network throws fate hears command net).2.servers service) key ≤
      copies text (net.servers service) key +
        appends text command (network throws fate hears command net).1 := by
  cases command with
  | act effect =>
      cases effect with
      | redis observed command =>
          rcases (network_redis_cases throws fate hears observed command net).1 with same | served
          · rw [same]
            exact Nat.le_add_right _ _
          · simp only [served, serve]
            by_cases here : service = observed
            · subst here
              rw [Function.update_self]
              have grows := exec_copies text command (net.servers service) key
              cases command <;> exact grows
            · rw [Function.update_of_ne here]
              exact Nat.le_add_right _ _
      | sendTo ipport uri body =>
          simp only [network]
          split <;> exact Nat.le_add_right _ _
  | post letter => exact Nat.le_add_right _ _
  | take node place =>
      rcases network_take_cases throws fate hears node place net with same | ⟨letter, _, _, same⟩ <;>
      · rw [same]
        exact Nat.le_add_right _ _
  | drop place => exact Nat.le_add_right _ _

section Run
variable [Fintype Worker] [DecidableEq Worker]

omit [Fintype Worker] in
/-- What is appended is all that makes a list longer. -/
theorem run_copies (text : Bytes) (servers : Servers) (service key : Bytes)
    (schedule : List (Choice Worker NetJob)) :
    copies text ((networkAfter forms rand site desk throws fate hears servers
        schedule).shared.servers service) key ≤
      copies text (servers service) key + appended text
        (networkAfter forms rand site desk throws fate hears servers schedule).history := by
  have keeps : (Discipline.anything : Discipline Worker NetJob (NetCommand Node) NetAnswer
      Unit).Keeps (network throws fate hears) (fun _ (_ : NetResult) => True) (fun _ _ => True)
      (fun shared _ history => copies text (shared.servers service) key ≤
        copies text (servers service) key + appended text history) :=
    { begins := fun _ _ _ _ _ before => before
      issues := by
        intro pool worker call command next _ _ _ _ before
        have here := network_copies throws fate hears text command pool.shared service key
        rw [appended, Budget.tally_executed, ← Nat.add_assoc]
        exact here.trans (Nat.add_le_add_right before _)
      returns := by
        intro shared phases history worker job phase result _ _ before
        rwa [appended, Budget.tally_returned] }
  exact (Discipline.run_keeps keeps (fun _ _ _ _ => Discipline.anything_follows _)
    (idle ⟨servers, [], 0⟩) schedule (along_of_forall _ _ (fun _ => True) _ _ fun _ _ => trivial)
    (Discipline.idle_tracked _) (by exact Nat.le_add_right _ _)).2

/-- However the workers of all nodes are interleaved, and whatever commands and
letters get lost: a transaction is appended to pools, and is on its way, no more
often than wallets handed it in, and no list holds more copies of it than it did
at the start and than were handed in since. -/
theorem transactions_appended_once (lawful : Lawful forms) (fills : FillsAll forms)
    (servers : Servers) (schedule : List (Choice Worker NetJob)) (text : Bytes) :
    let after := networkAfter forms rand site desk throws fate hears servers schedule
    appended text after.history + (after.shared.letters.countP fun letter =>
        Carries forms text letter) ≤ submitted forms text after.history ∧
      ∀ service key, copies text (after.shared.servers service) key ≤
        copies text (servers service) key + submitted forms text after.history := by
  intro after
  have bound := (carrying forms text).flow_bound forms rand site desk throws fate hears fills
    (carrying_kind forms text)
    (fun node letter _ => carrying_covers forms site lawful text node letter) servers schedule
  have spent : ((carrying forms text).spent : NetCommand Node → NetAnswer → Nat) = appends text :=
    funext fun command => funext fun answer => carrying_spent forms text command answer
  have onTheWay : (after.shared.letters.map (carrying forms text).weight).sum =
      after.shared.letters.countP fun letter => Carries forms text letter :=
    Budget.sum_indicator _ _
  have granted : Budget.tally (carrying forms text).granted after.history =
      submitted forms text after.history := rfl
  rw [spent] at bound
  change appended text after.history + (after.shared.letters.map (carrying forms text).weight).sum ≤
    Budget.tally (carrying forms text).granted after.history at bound
  rw [onTheWay, granted] at bound
  refine ⟨bound, fun service key => ?_⟩
  have grows := run_copies forms rand site desk throws fate hears text servers service key schedule
  change copies text (after.shared.servers service) key ≤
    copies text (servers service) key + appended text after.history at grows
  omega

end Run
end Flow

/-! A wallet hands a transaction to a miner, which sends it on to the root. -/

def aliceToBob : Transaction := ⟨ascii "t1", ascii "alice", ascii "bob", 3, 0⟩

def toMiner : Letter :=
  ⟨minerService._hostport, Transaction.uri, nodeForms.transaction.toString aliceToBob⟩

def serveFirst : NetJob := .serve 0 (fun _ => ⟨0, 0⟩) 0

/-- The worker of each node is the node's name; the wallet's message is put in
by the root's. -/
def viaMiner : List (Choice Bool NetJob) :=
  [.start true (.post toMiner), .advance true, .start false serveFirst, .advance false,
    .advance false, .advance false, .start true serveFirst, .advance true, .advance true,
    .advance true, .advance true, .advance true]

/-- Alice owns enough at the root. -/
def aliceOwns (service : Bytes) : Db :=
  if service = rootServerConf.cacheService then
    (∅ : Db).insert (ascii "alice") (.string (ascii "5"))
  else ∅

theorem transactions_appended_once_viaMiner :
    let after := networkAfter nodeForms (fun _ _ => 0) rootAndMiner id (fun _ => false)
      (fun _ => .answered) ownAddress aliceOwns viaMiner
    let text := nodeForms.transaction.toString aliceToBob
    appended text after.history = 1 ∧ submitted nodeForms text after.history = 1 ∧
      copies text (after.shared.servers rootServerConf.cacheService) rootServerConf.txPoolKey ≤
        copies text (aliceOwns rootServerConf.cacheService) rootServerConf.txPoolKey +
          submitted nodeForms text after.history :=
  ⟨by decide +kernel, by decide +kernel,
    (transactions_appended_once nodeForms (fun _ _ => 0) rootAndMiner id (fun _ => false)
      (fun _ => .answered) ownAddress nodeForms_lawful nodeForms_fills aliceOwns viaMiner
      (nodeForms.transaction.toString aliceToBob)).2 rootServerConf.cacheService
      rootServerConf.txPoolKey⟩

end FPayNode.TransactionFlow
