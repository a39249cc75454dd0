import FPayNode.TransactionFlow

/-!
How often a transaction is forwarded. A miner sends it to its parent whatever it
went through before, so it comes to rest where the parents lead away from every
address, and nowhere else.
-/

namespace FPayNode.TransactionHops

open CommandProgram WorkerPool Budgets DecimalText RedisServer RedisCache Messages NodeService
open NodeRequests RequestJson BlockSync NodeNetwork TransactionFlow

section Hops
variable {Worker Node : Type} (forms : Forms) (rand : UInt32 → Nat → Nat)
variable (site : Node → Site) (desk : Worker → Node)
variable (throws : Bytes → Bool) (fate : Nat → Fate) (hears : Node → Bytes → Bool)

/-- How often a node tried to forward a transaction. -/
def forwarded (history : List (NetEvent Worker Node)) : Nat :=
  Budget.tally (fun
    | .act (.sendTo _ uri _), _ => if uri = Transaction.uri then 1 else 0
    | _, _ => 0) history

/-- The distances that the transactions of wallets started with. -/
def distances (far : Bytes → Nat) (history : List (NetEvent Worker Node)) : Nat :=
  Budget.tally (fun
    | .post letter, _ => if (paymentIn forms letter).isSome then far letter.ipport else 0
    | _, _ => 0) history

/-- A miner's parent is nearer than every address that the miner hears. -/
def Nearer (far : Bytes → Nat) : Prop :=
  ∀ node ipport, hears node ipport = true → (site node).service._nodeRole = .miner →
    far (site node).service._parentNode < far ipport

def hopping (far : Bytes → Nat) : Flow where
  weight letter := if (paymentIn forms letter).isSome then far letter.ipport else 0
  append _ := 0
  hop := 1

theorem hopping_kind (far : Bytes → Nat) : (hopping forms far).Kind := by
  intro letter other
  simp [hopping, paymentIn, other]

theorem hopping_covers (lawful : Lawful forms) (far : Bytes → Nat)
    (nearer : Nearer site hears far) (node : Node) (letter : Letter)
    (heard : hears node letter.ipport = true) :
    (hopping forms far).need forms site node letter ≤ (hopping forms far).weight letter := by
  simp only [Flow.need]
  cases carried : paymentIn forms letter with
  | none => exact Nat.zero_le _
  | some tx =>
      cases role : (site node).service._nodeRole with
      | none => exact Nat.zero_le _
      | root => exact Nat.zero_le _
      | miner =>
          have next := nearer node letter.ipport heard role
          have same := paymentIn_forwarded forms lawful letter tx carried
            (site node).service._parentNode
          simp only [hopping, same, carried, Option.isSome_some, ↓reduceIte]
          omega

variable [Fintype Worker] [DecidableEq Worker]

/-- Where parents lead nearer and nearer to a root, all forwards of a run are
paid for by the distances at which wallets handed transactions in. -/
theorem forwards_within_distances (lawful : Lawful forms) (fills : FillsAll forms)
    (far : Bytes → Nat) (nearer : Nearer site hears far) (servers : Servers)
    (schedule : List (Choice Worker NetJob)) :
    let after := networkAfter forms rand site desk throws fate hears servers schedule
    forwarded after.history ≤ distances forms far after.history := by
  intro after
  have bound := (hopping forms far).flow_bound forms rand site desk throws fate hears fills
    (hopping_kind forms far) (hopping_covers forms site hears lawful far nearer) servers schedule
  have spent : ((hopping forms far).spent : NetCommand Node → NetAnswer → Nat) = fun
      | .act (.sendTo _ uri _), _ => if uri = Transaction.uri then 1 else 0
      | _, _ => 0 := by
    funext command answer
    cases command with
    | act effect =>
        cases effect with
        | sendTo ipport uri body => rfl
        | redis service command => cases command <;> simp [Flow.spent, hopping]
    | _ => rfl
  rw [spent] at bound
  exact (Nat.le_add_right _ _).trans bound

end Hops

def oneHop (ipport : Bytes) : Nat := if ipport = minerService._hostport then 1 else 0

theorem rootAndMiner_nearer : Nearer rootAndMiner ownAddress oneHop := by
  intro node ipport heard miner
  cases node with
  | true => cases miner
  | false =>
      obtain rfl : ipport = minerService._hostport := of_decide_eq_true heard
      decide +kernel

theorem forwards_within_distances_viaMiner :
    let after := networkAfter nodeForms (fun _ _ => 0) rootAndMiner id (fun _ => false)
      (fun _ => .answered) ownAddress aliceOwns viaMiner
    forwarded after.history = 1 ∧ forwarded after.history ≤ distances nodeForms oneHop after.history :=
  ⟨by decide +kernel, forwards_within_distances nodeForms (fun _ _ => 0) rootAndMiner id
    (fun _ => false) (fun _ => .answered) ownAddress nodeForms_lawful nodeForms_fills oneHop
    rootAndMiner_nearer aliceOwns viaMiner⟩

/-! Miners whose parents lead to no root. -/

section Ring
variable {Worker Node : Type} (forms : Forms) (rand : UInt32 → Nat → Nat)
variable (site : Node → Site) (desk : Worker → Node)
variable (throws : Bytes → Bool) (fate : Nat → Fate) (hears : Node → Bytes → Bool)

structure Forwards (node : FPService) : Prop where
  miner : node._nodeRole = .miner
  target : node._routeTarget = true
  named : node._parentNode ≠ []
  ported : throws node._parentNode = false

theorem handleTransaction_miner (config : Config) (cereal : Cereal) (node : FPService)
    (tx : Transaction) (forwards : Forwards throws node) (known : tx._from ≠ []) :
    handleTransaction config cereal node tx =
      .issue (.redis config.cacheService (.get tx._from)) fun answer =>
        if (textOf [] answer).1 then forward cereal node tx else .finish (.ok false) := by
  simp only [handleTransaction, queryBalance, get_form, known, ↓reduceIte, Program.issue_bind,
    Program.finish_bind, forwards.miner]
  congr 1
  funext answer
  cases (textOf [] answer).1 <;> simp

theorem serveLetter_miner (fills : FillsAll forms) (node : Site)
    (forwards : Forwards throws node.service) (memory : Nat → Uninitialized) (reads : Nat)
    (letter : Letter) (tx : Transaction) (carried : paymentIn forms letter = some tx)
    (known : tx._from ≠ []) :
    ∃ rest : NetAnswer → Program (NetCommand Node) NetAnswer NetResult,
      serveLetter forms node memory reads (.taken (some letter)) =
        .issue (.act (.redis node.config.cacheService (.get tx._from))) rest ∧
      ∀ reply, ∃ last : NetAnswer → Program (NetCommand Node) NetAnswer NetResult,
        rest (.act (.reply reply)) = .issue (.act (.sendTo node.service._parentNode
          Transaction.uri (forms.transaction.toString tx))) last ∧
        ∃ result, last (.act .sent) = .finish result := by
  have read := (readLetter_payment forms fills (memory 0) letter tx).mpr carried
  simp only [serveLetter, read, onNode, handle, onTransaction,
    handleTransaction_miner throws _ _ _ _ forwards known, Program.issue_bind, Program.embed_issue]
  refine ⟨_, rfl, fun reply => ?_⟩
  have found : (textOf [] (heardOf (.act (.reply reply)))).1 = true := by cases reply <;> rfl
  simp only [found, ↓reduceIte, forward_form, forwards.target, List.isEmpty_iff, forwards.named,
    Bool.not_true, Bool.false_or, Program.issue_bind, Program.finish_bind, Program.embed_issue]
  exact ⟨_, rfl, _, rfl⟩

variable [DecidableEq Worker] (clerk : Node → Worker)

/-- One letter is on its way and waits for the node; nobody is at work. -/
structure Waiting (node : Node) (tx : Transaction)
    (pool : Pool Worker NetJob (NetCommand Node) NetAnswer NetResult Network) : Prop where
  rest : ∀ worker, pool.running worker = none
  letter : ∃ letter, pool.shared.letters = [letter] ∧ hears node letter.ipport = true ∧
    paymentIn forms letter = some tx

/-- A worker takes the letter, looks the account up and sends the transaction on. -/
def visit (memory : Nat → Uninitialized) (reads : Nat) (worker : Worker) :
    List (Choice Worker NetJob) :=
  [.start worker (.serve 0 memory reads), .advance worker, .advance worker, .advance worker]

theorem visit_forwards (lawful : Lawful forms) (fills : FillsAll forms)
    (answered : ∀ n, fate n = .answered) (memory : Nat → Uninitialized) (reads : Nat)
    (node next : Node) (tx : Transaction) (sits : desk (clerk node) = node)
    (forwards : Forwards throws (site node).service) (known : tx._from ≠ [])
    (near : hears next (site node).service._parentNode = true)
    (pool : Pool Worker NetJob (NetCommand Node) NetAnswer NetResult Network)
    (waiting : Waiting forms hears node tx pool) :
    let after := runPool (network throws fate hears) (office forms rand site desk) pool
      (visit memory reads (clerk node))
    Waiting forms hears next tx after ∧ forwarded after.history = forwarded pool.history + 1 ∧
      ∀ text, submitted forms text after.history = submitted forms text pool.history := by
  obtain ⟨letter, only, heard, carried⟩ := waiting.letter
  obtain ⟨rest, taken, later⟩ := @serveLetter_miner Node forms throws fills (site node)
    forwards memory reads letter tx carried known
  obtain ⟨last, sends, result, ends⟩ := later
    (exec (.get tx._from) (pool.shared.servers (site node).config.cacheService)).1
  simp only [runPool, visit, List.foldl_cons, List.foldl_nil, step, waiting.rest, office, resume,
    Function.update_self, network, only, List.getElem?_cons_zero, heard, ↓reduceIte, sits, taken,
    answered, serve, sends, forwards.ported, Bool.false_eq_true, ends]
  refine ⟨⟨fun worker => ?_, ⟨(site node).service._parentNode, Transaction.uri,
    forms.transaction.toString tx⟩, rfl, near,
    paymentIn_forwarded forms lawful letter tx carried _⟩, ?_, fun text => ?_⟩
  · by_cases same : worker = clerk node
    · simp only [same, Function.update_self]
    · simp only [Function.update_of_ne same, waiting.rest]
  · simp only [forwarded, Budget.tally_executed, Budget.tally_returned]
    rfl
  · simp only [submitted, Budget.tally_executed, Budget.tally_returned]
    rfl

def visits (memory : Nat → Uninitialized) (reads : Nat) (path : Nat → Node) (count : Nat) :
    List (Choice Worker NetJob) :=
  (List.range count).flatMap fun i => visit memory reads (clerk (path i))

theorem visits_forward (lawful : Lawful forms) (fills : FillsAll forms)
    (answered : ∀ n, fate n = .answered) (sits : ∀ node, desk (clerk node) = node)
    (memory : Nat → Uninitialized) (reads : Nat) (path : Nat → Node) (tx : Transaction)
    (known : tx._from ≠ []) (forwards : ∀ i, Forwards throws (site (path i)).service)
    (near : ∀ i, hears (path (i + 1)) (site (path i)).service._parentNode = true)
    (pool : Pool Worker NetJob (NetCommand Node) NetAnswer NetResult Network)
    (waiting : Waiting forms hears (path 0) tx pool) (count : Nat) :
    let after := runPool (network throws fate hears) (office forms rand site desk) pool
      (visits clerk memory reads path count)
    Waiting forms hears (path count) tx after ∧
      forwarded after.history = forwarded pool.history + count ∧
      ∀ text, submitted forms text after.history = submitted forms text pool.history := by
  induction count with
  | zero => exact ⟨waiting, rfl, fun _ => rfl⟩
  | succ count ih =>
      obtain ⟨arrived, earlier, submissions⟩ := ih
      obtain ⟨next, more, same⟩ := visit_forwards forms rand site desk throws fate hears clerk
        lawful fills answered memory reads (path count) (path (count + 1)) tx (sits _)
        (forwards count) known (near count) _ arrived
      have split : runPool (network throws fate hears) (office forms rand site desk) pool
          (visits clerk memory reads path (count + 1)) =
          runPool (network throws fate hears) (office forms rand site desk)
            (runPool (network throws fate hears) (office forms rand site desk) pool
              (visits clerk memory reads path count)) (visit memory reads (clerk (path count))) := by
        rw [visits, List.range_succ, List.flatMap_append, List.flatMap_singleton, runPool,
          List.foldl_append]
        rfl
      rw [split]
      exact ⟨next, by rw [more, earlier, Nat.add_assoc], fun text => (same text).trans (submissions text)⟩

/-- Nothing else ends it: where the parents of miners lead to miners for ever,
as around a ring, one transaction that a wallet hands in once is forwarded any
number of times. -/
theorem forwards_without_end (lawful : Lawful forms) (fills : FillsAll forms)
    (answered : ∀ n, fate n = .answered) (sits : ∀ node, desk (clerk node) = node)
    (path : Nat → Node) (forwards : ∀ i, Forwards throws (site (path i)).service)
    (near : ∀ i, hears (path (i + 1)) (site (path i)).service._parentNode = true)
    (ipport : Bytes) (heard : hears (path 0) ipport = true) (tx : Transaction) (clean : tx.Clean)
    (known : tx._from ≠ []) (servers : Servers) (count : Nat) :
    ∃ schedule : List (Choice Worker NetJob),
      let after := networkAfter forms rand site desk throws fate hears servers schedule
      submitted forms (forms.transaction.toString tx) after.history = 1 ∧
        forwarded after.history = count := by
  let letter : Letter := ⟨ipport, Transaction.uri, forms.transaction.toString tx⟩
  let handIn : List (Choice Worker NetJob) :=
    [.start (clerk (path 0)) (.post letter), .advance (clerk (path 0))]
  have carried : paymentIn forms letter = some tx := by
    simp [letter, paymentIn, load, lawful.cereal.transaction.round _ _ clean]
  let first := networkAfter forms rand site desk throws fate hears servers handIn
  have arrived : first.shared.letters = [letter] := by
    simp [first, handIn, networkAfter, runPool, step, idle, office, resume, network]
  have history : first.history =
      [.executed (clerk (path 0)) (.post letter) [] (.post letter) .done,
        .returned (clerk (path 0)) (.post letter) .done] := by
    simp [first, handIn, networkAfter, runPool, step, idle, office, resume, network]
  have posted : Waiting forms hears (path 0) tx first := by
    refine ⟨fun worker => ?_, letter, arrived, heard, carried⟩
    by_cases same : worker = clerk (path 0)
    · simp [first, handIn, networkAfter, runPool, step, idle, office, resume, same]
    · simp [first, handIn, networkAfter, runPool, step, idle, office, resume]
  have once : submitted forms (forms.transaction.toString tx) first.history = 1 := by
    simp [history, submitted, Budget.tally, Carries, carried]
  have none : forwarded first.history = 0 := by
    simp [history, forwarded, Budget.tally]
  obtain ⟨-, hops, submissions⟩ := visits_forward forms rand site desk throws fate hears clerk
    lawful fills answered sits (fun _ => ⟨0, 0⟩) 0 path tx known forwards near _ posted count
  refine ⟨handIn ++ visits clerk (fun _ => ⟨0, 0⟩) 0 path count, ?_, ?_⟩
  · rw [networkAfter, runPool, List.foldl_append]
    exact (submissions _).trans once
  · rw [networkAfter, runPool, List.foldl_append]
    exact hops.trans (by rw [none, Nat.zero_add])

end Ring

def lonely : Site := ⟨minerConf, { minerService with _parentNode := minerService._hostport }⟩

theorem forwards_without_end_lonely :
    ∃ schedule : List (Choice Unit NetJob),
      let after := networkAfter nodeForms (fun _ _ => 0) (fun _ => lonely) id (fun _ => false)
        (fun _ => .answered) (fun _ ipport => ipport = minerService._hostport) (fun _ => ∅) schedule
      submitted nodeForms (nodeForms.transaction.toString aliceToBob) after.history = 1 ∧
        forwarded after.history = 1000 :=
  forwards_without_end nodeForms (fun _ _ => 0) (fun _ => lonely) id (fun _ => false)
    (fun _ => .answered) (fun _ ipport => ipport = minerService._hostport) id nodeForms_lawful
    nodeForms_fills (fun _ => rfl) (fun _ => rfl) (fun _ => ())
    (fun _ => ⟨rfl, rfl, by decide +kernel, rfl⟩) (fun _ => by decide +kernel)
    minerService._hostport (by decide +kernel) aliceToBob (by decide) (by decide) (fun _ => ∅) 1000

end FPayNode.TransactionHops
