import FPayNode.TransactionFlow

/-!
Where the transactions of a block come from. Before a node sends a block, the same
call has issued the command that stores it, whether or not that was carried out.
Everything in the block was read from a pool; what is in a pool was taken from a
letter; and no node makes up a transaction.
-/

namespace FPayNode.BlockProvenance

open CommandProgram WorkerPool Budgets DecimalText RedisServer RedisCache Messages NodeService
open NodeRequests RequestJson BlockSync NodeNetwork TransactionFlow
open BlockCreation (getBlock_issues)

section Provenance
variable {Worker Node : Type} (forms : Forms) (rand : UInt32 → Nat → Nat)
variable (site : Node → Site) (desk : Worker → Node)
variable (throws : Bytes → Bool) (fate : Nat → Fate) (hears : Node → Bytes → Bool)

/-- The texts of transactions that one answer brings a call. -/
def textsOf : NetCommand Node × NetAnswer → List Bytes
  | (.take _ _, .taken (some letter)) =>
      ((paymentIn forms letter).map forms.transaction.toString).toList
  | (.act (.redis _ (.lrange _ _ _)), .act answer) => (itemsOf answer).getD []
  | _ => []

def textsIn (done : List (NetCommand Node × NetAnswer)) : List Bytes :=
  done.flatMap (textsOf forms)

/-- Storing the block was asked for, and each of its transactions read from a
text. -/
structure Made (dbService : Bytes) (done : List (NetCommand Node × NetAnswer)) (block : Block) :
    Prop where
  issued : ∃ answer, (.act (.redis dbService
    (.set block._id (forms.block.toString block) (-1) .always)), answer) ∈ done
  loaded : ∀ tx ∈ block._txList, ∃ text ∈ textsIn forms done, ∃ memory,
    tx = (forms.transaction.fromString text (Transaction.fresh memory)).2

/-- The text is what a letter with it carries. -/
def Settled (body : Bytes) : Prop :=
  ∀ ipport text, Carries forms text ⟨ipport, Transaction.uri, body⟩ → text = body

/-- What a call may do with what it has read. -/
def Warranted (dbService : Bytes) (done : List (NetCommand Node × NetAnswer)) :
    NetCommand Node → Prop
  | .act (.redis _ (.rpush _ values)) => ∀ text ∈ values, text ∈ textsIn forms done
  | .act (.redis _ _) => True
  | .act (.sendTo _ uri body) =>
      (uri = Transaction.uri → body ∈ textsIn forms done ∧ Settled forms body) ∧
        (uri = Block.uri → ∃ block, body = forms.block.toString block ∧
          Made forms dbService done block)
  | _ => True

theorem settled_carried (lawful : Lawful forms) (letter : Letter) (tx : Transaction)
    (carried : paymentIn forms letter = some tx) : Settled forms (forms.transaction.toString tx) := by
  intro ipport text carries
  rw [Carries, paymentIn_forwarded forms lawful letter tx carried] at carries
  exact (Option.some.inj carries).symm

theorem made_mono (dbService : Bytes) (done later : List (NetCommand Node × NetAnswer))
    (block : Block) (further : done <+: later) (made : Made forms dbService done block) :
    Made forms dbService later block := by
  obtain ⟨more, rfl⟩ := further
  obtain ⟨⟨answer, issued⟩, loaded⟩ := made
  refine ⟨⟨answer, List.mem_append_left _ issued⟩, fun tx member => ?_⟩
  obtain ⟨text, held, from_text⟩ := loaded tx member
  exact ⟨text, by rw [textsIn, List.flatMap_append]; exact List.mem_append_left _ held, from_text⟩

/-! The calls of a node. -/

/-- Every call notes what it does, for the block service of its node. -/
def noting : Discipline Worker NetJob (NetCommand Node) NetAnswer
    (Bytes × List (NetCommand Node × NetAnswer)) :=
  Discipline.diary (fun worker => (site (desk worker)).config.dbService) (Warranted forms)

theorem quiet_warranted (dbService : Bytes) (done : List (NetCommand Node × NetAnswer))
    (effect : Effect) (quiet : Quiet effect) : Warranted forms dbService done (.act effect) := by
  cases effect with
  | sendTo ipport uri body =>
      exact ⟨fun same => absurd same quiet.1, fun same => absurd same quiet.2⟩
  | redis service command => cases command <;> first | exact trivial | exact quiet.elim

/-- A quiet program only adds to what the call has done. -/
theorem quiet_follows {Result : Type} (dbService : Bytes)
    (done : List (NetCommand Node × NetAnswer)) (calls : Calls Result) (quiet : calls.Issues Quiet) :
    (noting forms site desk).Follows (fun later _ => later.1 = dbService ∧ done <+: later.2)
      (dbService, done) (onNode calls) := by
  suffices all : ∀ earlier : List (NetCommand Node × NetAnswer), done <+: earlier →
      (noting forms site desk).Follows (fun later _ => later.1 = dbService ∧ done <+: later.2)
        (dbService, earlier) (onNode calls) from all done (List.prefix_refl _)
  induction calls with
  | finish result => exact fun earlier further => ⟨rfl, further⟩
  | issue command next ih =>
      intro earlier further
      exact ⟨quiet_warranted forms dbService earlier command quiet.1, fun answer =>
        ih _ (quiet.2 _) _ (further.trans (List.prefix_append _ _))⟩

theorem node_bind {Result Final : Type} (phase : Bytes × List (NetCommand Node × NetAnswer))
    (middle : Bytes × List (NetCommand Node × NetAnswer) → Result → Prop)
    (post : Bytes × List (NetCommand Node × NetAnswer) → Final → Prop) (calls : Calls Result)
    (rest : Result → Calls Final)
    (first : (noting forms site desk).Follows middle phase (onNode calls))
    (second : ∀ later result, middle later result →
      (noting forms site desk).Follows post later (onNode (rest result))) :
    (noting forms site desk).Follows post phase (onNode (calls >>= rest)) := by
  rw [onNode_bind]
  exact Discipline.follows_bind _ middle post _ _ _ first second

theorem quiet_bind {Result Final : Type} (dbService : Bytes)
    (done : List (NetCommand Node × NetAnswer))
    (post : Bytes × List (NetCommand Node × NetAnswer) → Final → Prop) (calls : Calls Result)
    (rest : Result → Calls Final) (quiet : calls.Issues Quiet)
    (second : ∀ later result, done <+: later →
      (noting forms site desk).Follows post (dbService, later) (onNode (rest result))) :
    (noting forms site desk).Follows post (dbService, done) (onNode (calls >>= rest)) := by
  refine node_bind forms site desk _ _ _ _ _ (quiet_follows forms site desk dbService done calls
    quiet) ?_
  rintro ⟨service, later⟩ result ⟨same, further⟩
  obtain rfl : service = dbService := same
  exact second later result further

theorem textsIn_mono (done later : List (NetCommand Node × NetAnswer)) (further : done <+: later)
    (text : Bytes) (held : text ∈ textsIn forms done) : text ∈ textsIn forms later := by
  obtain ⟨more, rfl⟩ := further
  rw [textsIn, List.flatMap_append]
  exact List.mem_append_left _ held

theorem enQueue_follows (dbService service topic text : Bytes)
    (done : List (NetCommand Node × NetAnswer)) (held : text ∈ textsIn forms done) :
    (noting forms site desk).Follows (fun _ _ => True) (dbService, done)
      (onNode (enQueue service topic text)) := by
  rw [enQueue_form]
  split
  · exact trivial
  · exact ⟨fun value member => List.mem_singleton.mp member ▸ held, fun _ => trivial⟩

/-- The transaction of a letter is forwarded or appended as it came. -/
theorem handleTransaction_follows (dbService : Bytes) (config : Config) (node : FPService)
    (tx : Transaction) (done : List (NetCommand Node × NetAnswer))
    (held : forms.transaction.toString tx ∈ textsIn forms done)
    (settled : Settled forms (forms.transaction.toString tx)) :
    (noting forms site desk).Follows (fun _ _ => True) (dbService, done)
      (onNode (handleTransaction config forms.toCereal node tx)) := by
  refine quiet_bind forms site desk dbService done _ _ _
    (queryBalance_issues config Quiet _ _ trivial) ?_
  rintro later ⟨found, balance⟩ further
  have held := textsIn_mono forms done later further _ held
  dsimp only
  split
  · exact trivial
  · cases node._nodeRole with
    | none => exact trivial
    | miner =>
        dsimp only
        rw [forward_form]
        split
        · exact trivial
        · exact ⟨⟨fun _ => ⟨held, settled⟩, fun same => absurd same (by decide)⟩, fun _ => trivial⟩
    | root =>
        have pushes : ∀ done : List (NetCommand Node × NetAnswer), later <+: done →
            (noting forms site desk).Follows (fun _ _ => True) (dbService, done) (onNode
              (if (forms.transaction.toString tx).isEmpty = true then pure (.ok false)
                else do
                  let _ ← enQueue config.cacheService config.txPoolKey (forms.transaction.toString tx)
                  pure (.ok true) : Calls (Except Thrown Bool))) := by
          intro done further
          split
          · exact trivial
          · exact node_bind forms site desk _ _ _ _ _ (enQueue_follows forms site desk _ _ _ _ done
              (textsIn_mono forms later done further _ held)) fun _ _ _ => trivial
        dsimp only
        split
        · refine quiet_bind forms site desk _ _ _ _ _ (incrBy_issues Quiet _ _ _ _ trivial) ?_
          intro debited _ first
          refine quiet_bind forms site desk _ _ _ _ _ (incrBy_issues Quiet _ _ _ _ trivial) ?_
          exact fun credited _ second => pushes credited (first.trans second)
        · exact pushes later (List.prefix_refl _)

theorem sendAll_follows (dbService : Bytes) (block : Block) (nodes : List Bytes)
    (done : List (NetCommand Node × NetAnswer)) (made : Made forms dbService done block) :
    (noting forms site desk).Follows (fun _ _ => True) (dbService, done)
      (onNode (sendAll forms.toCereal block nodes)) := by
  induction nodes generalizing done with
  | nil => exact trivial
  | cons nodeStr nodes ih =>
      rw [sendAll]
      split
      · exact ih done made
      · refine ⟨⟨fun same => absurd same (by decide), fun _ => ⟨block, rfl, made⟩⟩,
          fun answer => ?_⟩
        have later := fun sent : NetCommand Node => ih (done ++ [(sent, answer)])
          (made_mono forms dbService _ _ block (List.prefix_append _ _) made)
        cases answer with
        | act answer =>
            cases answer with
            | threw => exact trivial
            | _ => exact later _
        | _ => exact later _

theorem broadcast_follows (dbService : Bytes) (config : Config) (block : Block)
    (done : List (NetCommand Node × NetAnswer)) (made : Made forms dbService done block) :
    (noting forms site desk).Follows (fun _ _ => True) (dbService, done)
      (onNode (broadcast config forms.toCereal block)) := by
  refine quiet_bind forms site desk _ _ _ _ _ ?_ ?_
  · rw [getMembers_form]
    refine ⟨trivial, fun answer => ?_⟩
    dsimp only
    cases itemsOf answer <;> exact trivial
  · rintro later ⟨found, childNodes⟩ further
    dsimp only
    split
    · exact trivial
    · exact sendAll_follows forms site desk dbService block childNodes later
        (made_mono forms dbService done later block further made)

/-- What a drain returns, the call has read. -/
theorem deQueueAll_follows (dbService service key : Bytes)
    (done : List (NetCommand Node × NetAnswer)) :
    (noting forms site desk).Follows
      (fun later result => later.1 = dbService ∧ ∀ text ∈ result.2, text ∈ textsIn forms later.2)
      (dbService, done) (onNode (deQueueAll service key [])) := by
  rw [deQueueAll_form]
  refine ⟨trivial, fun answer => ?_⟩
  have read : ∀ items, itemsOf (heardOf answer) = some items → ∀ text ∈ items,
      text ∈ textsIn forms (done ++ [(.act (.redis service (.lrange key 0 (-1))), answer)]) := by
    intro items found text member
    rw [textsIn, List.flatMap_append]
    refine List.mem_append_right _ ?_
    cases answer with
    | act answer =>
        rw [heardOf] at found
        simp [textsOf, found, member]
    | done => cases found
    | taken letter => cases found
  dsimp only
  cases found : itemsOf (heardOf answer) with
  | none => exact ⟨rfl, fun text member => absurd member List.not_mem_nil⟩
  | some items =>
      refine quiet_bind forms site desk _ _ _ _ _ (delete_issues Quiet _ _ trivial) ?_
      exact fun later deleted further => ⟨rfl, fun text member =>
        textsIn_mono forms _ later further text (read items found text member)⟩

theorem storeBlock_follows (lawful : Lawful forms) (config : Config) (block : Block)
    (done : List (NetCommand Node × NetAnswer)) (named : block._id ≠ [])
    (loaded : ∀ tx ∈ block._txList, ∃ text ∈ textsIn forms done, ∃ memory,
      tx = (forms.transaction.fromString text (Transaction.fresh memory)).2) :
    (noting forms site desk).Follows
      (fun later _ => later.1 = config.dbService ∧ Made forms config.dbService later.2 block)
      (config.dbService, done) (onNode (storeBlock config forms.toCereal block)) := by
  have written := lawful.cereal.block.nonempty block
  rw [storeBlock, if_neg (by simpa using written), set_form, if_neg named]
  refine ⟨trivial, fun answer => ⟨rfl, ⟨answer, List.mem_append_right _ List.mem_cons_self⟩,
    fun tx member => ?_⟩⟩
  obtain ⟨text, held, same⟩ := loaded tx member
  exact ⟨text, textsIn_mono forms _ _ (List.prefix_append _ _) text held, same⟩

theorem loadAll_loaded (cereal : Cereal) (memory : Nat → Uninitialized) (texts : List Bytes)
    (tx : Transaction) (member : tx ∈ loadAll cereal memory texts) :
    ∃ text ∈ texts, ∃ old,
      tx = (cereal.transaction.fromString text (Transaction.fresh old)).2 := by
  obtain ⟨i, bound, same⟩ := List.mem_mapIdx.mp member
  exact ⟨texts[i], List.getElem_mem bound, memory i, same.symm⟩

theorem createBlock_follows (lawful : Lawful forms) (config : Config) (moment : Moment)
    (memory : Uninitialized) (done : List (NetCommand Node × NetAnswer)) :
    (noting forms site desk).Follows
      (fun later result => later.1 = config.dbService ∧
        (result.1 = true → Made forms config.dbService later.2 result.2))
      (config.dbService, done)
      (onNode (createBlock config forms.toCereal rand moment (Block.fresh memory))) := by
  refine quiet_bind forms site desk _ _ _ _ _ (getBlock_issues config _ Quiet _ _ trivial) ?_
  rintro later ⟨_, lastBlock⟩ -
  refine node_bind forms site desk _ _ _ _ _ (deQueueAll_follows forms site desk _ _ _ later) ?_
  rintro ⟨service, drainedAt⟩ ⟨drained, txList⟩ ⟨same, read⟩
  obtain rfl : service = config.dbService := same
  dsimp only
  split
  · exact ⟨rfl, fun made => absurd made Bool.false_ne_true⟩
  · split
    · exact ⟨rfl, fun made => absurd made Bool.false_ne_true⟩
    · refine node_bind forms site desk _ _ _ _ _ (storeBlock_follows forms site desk lawful config _
        drainedAt (BlockCreation.genBlockId_ne_nil rand moment.seconds) ?_) ?_
      · intro tx member
        rcases List.mem_append.mp member with before | loaded
        · exact absurd before List.not_mem_nil
        · obtain ⟨text, inList, old, same⟩ := loadAll_loaded _ _ _ tx loaded
          exact ⟨text, read text inList, old, same⟩
      · rintro ⟨service, storedAt⟩ _ ⟨same, made⟩
        obtain rfl : service = config.dbService := same
        refine quiet_bind forms site desk _ _ _ _ _
          (storeBlock_issues config Quiet _ _ fun _ _ _ => trivial) ?_
        exact fun last _ further => ⟨rfl, fun _ => made_mono forms _ storedAt last _ further made⟩

theorem generateNewBlock_follows (lawful : Lawful forms) (config : Config) (node : FPService)
    (moment : Moment) :
    (noting forms site desk).Follows (fun _ _ => True) (config.dbService, [])
      (onNode (generateNewBlock config forms.toCereal node rand moment)) := by
  rw [generateNewBlock]
  split
  · exact trivial
  · refine quiet_bind forms site desk _ _ _ _ _ (setNX_issues Quiet _ _ _ trivial) ?_
    intro lockedAt locked _
    split
    · exact trivial
    · refine node_bind forms site desk _ _ _ _ _
        (createBlock_follows forms rand site desk lawful config moment _ lockedAt) ?_
      rintro ⟨service, createdAt⟩ ⟨created, block⟩ ⟨same, made⟩
      obtain rfl : service = config.dbService := same
      have released : ∀ phase, (noting forms site desk).Follows (fun _ _ => True) phase
          (onNode (releaseLock config node builderLock >>= fun _ => pure (.ok ()) :
            Calls (Except Thrown Unit))) := fun phase =>
        quiet_bind forms site desk phase.1 phase.2 _ _ _ (releaseLock_allowed config node _ (quiet_allows config) _)
          fun _ _ _ => trivial
      dsimp only
      cases created with
      | false => exact released _
      | true =>
          refine node_bind forms site desk _ _ _ (broadcast config forms.toCereal block) _
            (broadcast_follows forms site desk _ config block createdAt (made rfl)) ?_
          rintro phase left -
          cases left with
          | error thrown => exact trivial
          | ok sent => exact released phase

/-- Every job of a worker keeps to what it has read. -/
theorem office_follows (lawful : Lawful forms) (fills : FillsAll forms) (worker : Worker)
    (job : NetJob) :
    (noting forms site desk).Follows (fun _ _ => True)
      ((noting forms site desk).entry worker job) (office forms rand site desk worker job) := by
  cases job with
  | post letter => exact ⟨trivial, fun _ => trivial⟩
  | drop place => exact ⟨trivial, fun _ => trivial⟩
  | boot boot =>
      exact Discipline.follows_bind _ _ (fun _ _ => True) _ _ _ (quiet_follows forms site desk _ _ _
        (init_issues _ _ _ (quiet_allows _) _ boot)) fun _ _ _ => trivial
  | tick moment =>
      exact Discipline.follows_bind _ _ (fun _ _ => True) _ _ _
        (generateNewBlock_follows forms rand site desk lawful _ _ moment) fun _ _ _ => trivial
  | serve place memory reads =>
      refine ⟨trivial, fun answer => ?_⟩
      rcases answer with answer | _ | letter
      · exact trivial
      · exact trivial
      cases letter with
      | none => exact trivial
      | some letter =>
          simp only [serveLetter]
          cases read : readLetter forms (memory 0) letter with
          | none => exact trivial
          | some request =>
              by_cases payment : ∃ tx, request = .transaction tx
              · obtain ⟨tx, rfl⟩ := payment
                have carried := (readLetter_payment forms fills (memory 0) letter tx).mp read
                have held : forms.transaction.toString tx ∈ textsIn forms
                    [((.take (desk worker) place : NetCommand Node), .taken (some letter))] := by
                  simp [textsIn, textsOf, carried]
                have handled := handleTransaction_follows forms site desk
                  (site (desk worker)).config.dbService (site (desk worker)).config
                  (site (desk worker)).service tx _ held (settled_carried forms lawful letter tx carried)
                refine Discipline.follows_bind _ (fun _ _ => True) (fun _ _ => True) _ _ _
                  (node_bind forms site desk _ (fun _ _ => True) _ _ _
                    (node_bind forms site desk _ _ _ _ _ handled ?_) ?_) fun _ _ _ => trivial
                · intro phase left _
                  cases left <;> exact trivial
                · exact fun _ _ _ => trivial
              · exact Discipline.follows_bind _ _ (fun _ _ => True) _ _ _ (quiet_follows forms site
                  desk _ _ _ (handle_issues _ _ _ Quiet memory reads request
                    (fun tx same => payment ⟨tx, same⟩) (fun _ => trivial) (fun _ => trivial)
                    fun _ => trivial))
                  fun _ _ _ => trivial

/-! What is known of every text. -/

/-- The text was in a list at the start, or a wallet has handed it in. -/
def Known (start : Servers) (history : List (NetEvent Worker Node)) (text : Bytes) : Prop :=
  (∃ service key, text ∈ itemsIn ((start service).lookup key)) ∨ 0 < submitted forms text history

theorem known_append (start : Servers) (history : List (NetEvent Worker Node))
    (event : NetEvent Worker Node) (text : Bytes) (known : Known forms start history text) :
    Known forms start (history ++ [event]) text := by
  refine known.imp_right fun before => before.trans_le ?_
  cases event with
  | executed worker job done command answer =>
      rw [submitted, submitted, Budget.tally_executed]
      exact Nat.le_add_right _ _
  | returned worker job result => rw [submitted, submitted, Budget.tally_returned]

theorem exec_lrange_items (key : Bytes) (start stop : Int) (db : Db) (items : List Bytes)
    (read : itemsOf (.reply (exec (.lrange key start stop) db).1) = some items) :
    ∀ text ∈ items, text ∈ itemsIn (db.lookup key) := by
  simp only [exec] at read
  split at read
  · cases read
    exact fun text member => absurd member List.not_mem_nil
  · next list found =>
      cases read
      intro text member
      rw [found, itemsIn]
      exact List.mem_of_mem_drop (List.mem_of_mem_take member)
  · cases read

/-- Everything in the network is known, as far as it is a transaction. -/
structure AllKnown (known : Bytes → Prop) (net : Network) : Prop where
  listed : ∀ service key, ∀ text ∈ itemsIn ((net.servers service).lookup key), known text
  lettered : ∀ letter ∈ net.letters, ∀ text, Carries forms text letter → known text

/-- What a command puts into the network. -/
def Brings (known : Bytes → Prop) : NetCommand Node → Prop
  | .act (.redis _ (.rpush _ values)) => ∀ text ∈ values, known text
  | .act (.sendTo ipport uri body) => ∀ text, Carries forms text ⟨ipport, uri, body⟩ → known text
  | .post letter => ∀ text, Carries forms text letter → known text
  | _ => True

theorem exec_listed (known : Bytes → Prop) (command : NetCommand Node) (net : Network)
    (brings : Brings forms known command) (before : AllKnown forms known net) (service key text : Bytes)
    (member : text ∈
      itemsIn (((network throws fate hears command net).2.servers service).lookup key)) :
    known text := by
  have some : 0 < copies text ((network throws fate hears command net).2.servers service) key :=
    List.count_pos_iff.mpr member
  have grows := network_copies throws fate hears text command net service key
  by_cases old : 0 < copies text (net.servers service) key
  · exact before.listed service key text (List.count_pos_iff.mp old)
  · have pushed : 0 < appends text command (network throws fate hears command net).1 := by omega
    cases command with
    | act effect =>
        cases effect with
        | sendTo ipport uri body => exact absurd pushed (Nat.lt_irrefl 0)
        | redis observed command =>
            cases command with
            | rpush other values => exact brings text (List.count_pos_iff.mp pushed)
            | _ => exact absurd pushed (Nat.lt_irrefl 0)
    | _ => exact absurd pushed (Nat.lt_irrefl 0)

theorem network_known (known : Bytes → Prop) (command : NetCommand Node) (net : Network)
    (brings : Brings forms known command) (before : AllKnown forms known net) :
    AllKnown forms known (network throws fate hears command net).2 ∧
      ∀ text ∈ textsOf forms (command, (network throws fate hears command net).1), known text := by
  refine ⟨⟨exec_listed forms throws fate hears known command net brings before, ?_⟩, ?_⟩
  · intro letter member
    cases command with
    | act effect =>
        cases effect with
        | redis service command =>
            rw [(network_redis_cases throws fate hears service command net).2.1] at member
            exact before.lettered letter member
        | sendTo ipport uri body =>
            simp only [network] at member
            split at member
            · exact before.lettered letter member
            · rcases List.mem_append.mp member with old | new
              · exact before.lettered letter old
              · rw [List.mem_singleton.mp new]
                exact brings
    | post posted =>
        rcases List.mem_append.mp member with old | new
        · exact before.lettered letter old
        · rw [List.mem_singleton.mp new]
          exact brings
    | take node place =>
        rcases network_take_cases throws fate hears node place net with same | ⟨_, _, _, same⟩
        · rw [same] at member
          exact before.lettered letter member
        · rw [same] at member
          exact before.lettered letter (List.mem_of_mem_eraseIdx member)
    | drop place => exact before.lettered letter (List.mem_of_mem_eraseIdx member)
  · intro text member
    cases command with
    | act effect =>
        cases effect with
        | sendTo ipport uri body => cases member
        | redis service command =>
            cases command with
            | lrange key start stop =>
                rcases (network_redis_cases throws fate hears service (.lrange key start stop)
                  net).2.2 with lost | served
                · rw [lost] at member
                  cases member
                · rw [served] at member
                  simp only [textsOf, serve] at member
                  cases read : itemsOf (.reply (exec (.lrange key start stop)
                      (net.servers service)).1) with
                  | none =>
                      rw [read] at member
                      cases member
                  | some items =>
                      rw [read] at member
                      exact before.listed service key text
                        (exec_lrange_items key start stop _ items read text member)
            | _ => cases member
    | post letter => cases member
    | drop place => cases member
    | take node place =>
        rcases network_take_cases throws fate hears node place net with same |
          ⟨letter, found, _, same⟩
        · rw [same] at member
          cases member
        · rw [same] at member
          simp only [textsOf, Option.mem_toList] at member
          exact before.lettered letter (List.mem_of_getElem? found) text member

variable [DecidableEq Worker]

omit [DecidableEq Worker] in
/-- A command that is warranted brings what is known once it is noted. -/
theorem warranted_brings (start : Servers) (history : List (NetEvent Worker Node))
    (dbService : Bytes) (done : List (NetCommand Node × NetAnswer)) (worker : Worker) (job : NetJob)
    (command : NetCommand Node) (answer : NetAnswer)
    (warranted : Warranted forms dbService done command)
    (known : ∀ text ∈ textsIn forms done, Known forms start history text) :
    Brings forms (Known forms start (history ++ [.executed worker job done command answer]))
      command := by
  cases command with
  | act effect =>
      cases effect with
      | redis service command =>
          cases command with
          | rpush key values =>
              exact fun text member =>
                known_append forms start history _ text (known text (warranted text member))
          | _ => exact trivial
      | sendTo ipport uri body =>
          intro text carries
          by_cases transaction : uri = Transaction.uri
          · subst transaction
            obtain ⟨held, settled⟩ := warranted.1 rfl
            rw [settled ipport text carries]
            exact known_append forms start history _ body (known body held)
          · simp [Carries, paymentIn, transaction] at carries
  | post letter =>
      intro text carries
      right
      simp only [submitted, Budget.tally_executed, carries, ↓reduceIte]
      exact Nat.succ_pos _
  | _ => exact trivial

/-- What is known in every state of a run, and of every command so far. -/
structure Sourced (start : Servers) (net : Network)
    (phases : Worker → Option (Bytes × List (NetCommand Node × NetAnswer)))
    (history : List (NetEvent Worker Node)) : Prop where
  held : ∀ worker phase, phases worker = some phase →
    ∀ text ∈ textsIn forms phase.2, Known forms start history text
  stored : AllKnown forms (Known forms start history) net
  noted : ∀ worker job before command answer, .executed worker job before command answer ∈ history →
    Warranted forms (site (desk worker)).config.dbService before command ∧
      ∀ text ∈ textsIn forms before, Known forms start history text

theorem sourced_keeps (start : Servers) :
    (noting forms site desk).Keeps (network throws fate hears) (fun _ (_ : NetResult) => True)
      (fun _ _ => True) (Sourced forms site desk start) where
  begins pool worker job _ _ before := by
    refine ⟨fun other phase found => ?_, before.stored, before.noted⟩
    rcases update_cases _ worker other _ phase found with ⟨-, same⟩ | ⟨-, old⟩
    · cases same
      exact fun text member => absurd member List.not_mem_nil
    · exact before.held other phase old
  issues pool worker call command next running rest allowed _ before := by
    have phase : (noting forms site desk).phaseOf worker call =
        ((site (desk worker)).config.dbService, call.done) := Discipline.diary_phaseOf _ _ worker call
    have own := before.held worker _ ((noting forms site desk).phases_running pool worker call running)
    rw [phase] at allowed own
    have brings := warranted_brings forms start pool.history _ call.done worker call.job command
      (network throws fate hears command pool.shared).1 allowed own
    obtain ⟨stored, read⟩ := network_known forms throws fate hears _ command pool.shared brings
      ⟨fun service key text member =>
          known_append forms start pool.history _ text (before.stored.listed service key text member),
        fun letter member text carries => known_append forms start pool.history _ text
          (before.stored.lettered letter member text carries)⟩
    refine ⟨fun other found lookup text member => ?_, stored, ?_⟩
    · rcases update_cases _ worker other _ found lookup with ⟨-, same⟩ | ⟨-, old⟩
      · rw [phase] at same
        cases same
        change text ∈ textsIn forms (call.done ++ [(command, _)]) at member
        rw [textsIn, List.flatMap_append, List.flatMap_singleton] at member
        rcases List.mem_append.mp member with earlier | now
        · exact known_append forms start pool.history _ text (own text earlier)
        · exact read text now
      · exact known_append forms start pool.history _ text (before.held other found old text member)
    · intro other job done sent answer member
      rcases List.mem_append.mp member with old | new
      · obtain ⟨warranted, known⟩ := before.noted other job done sent answer old
        exact ⟨warranted, fun text held => known_append forms start _ _ text (known text held)⟩
      · cases List.mem_singleton.mp new
        exact ⟨allowed, fun text held => known_append forms start _ _ text (own text held)⟩
  returns shared phases history worker job phase result found _ before := by
    refine ⟨fun other phase found text member => ?_, ⟨?_, ?_⟩, ?_⟩
    · rcases update_cases _ worker other _ phase found with ⟨-, same⟩ | ⟨-, old⟩
      · cases same
      · exact known_append forms start history _ text (before.held other phase old text member)
    · exact fun service key text member =>
        known_append forms start history _ text (before.stored.listed service key text member)
    · exact fun letter member text carries =>
        known_append forms start history _ text (before.stored.lettered letter member text carries)
    · intro other earlier done command answer member
      rcases List.mem_append.mp member with old | new
      · obtain ⟨warranted, known⟩ := before.noted other earlier done command answer old
        exact ⟨warranted, fun text held => known_append forms start history _ text (known text held)⟩
      · cases List.mem_singleton.mp new

omit [DecidableEq Worker] in
/-- What a wallet handed in is read from its text as it was. -/
theorem submitted_loads (lawful : Lawful forms) (history : List (NetEvent Worker Node))
    (text : Bytes) (some : 0 < submitted forms text history) (memory : Uninitialized) :
    forms.transaction.toString
      (forms.transaction.fromString text (Transaction.fresh memory)).2 = text := by
  obtain ⟨worker, job, before, command, answer, -, positive⟩ := Budget.tally_pos _ _ some
  cases command with
  | post letter =>
      have carries : Carries forms text letter := by
        by_contra other
        simp [other] at positive
      obtain ⟨tx, carried, rfl⟩ := Option.map_eq_some_iff.mp carries
      simp only [paymentIn, load] at carried
      split at carried
      · split at carried
        · cases carried
          rw [lawful.cereal.transaction.round _ _ (lawful.cereal.transaction.loaded _ _
            (Transaction.fresh_clean _))]
        · cases carried
      · cases carried
  | _ => exact absurd positive (Nat.lt_irrefl 0)

/-- However workers and nodes are interleaved, and whatever gets lost: a block
that a node sends was first written under its id by a command of the same call,
which the service may have lost, and every transaction in it was handed in by a
wallet, as it stands there, or was read from a list that was there at the start. -/
theorem blocks_of_submitted_transactions (lawful : Lawful forms) (fills : FillsAll forms)
    (servers : Servers) (schedule : List (Choice Worker NetJob)) (worker : Worker) (job : NetJob)
    (before : List (NetCommand Node × NetAnswer)) (ipport body : Bytes) (answer : NetAnswer)
    (sent : .executed worker job before (.act (.sendTo ipport Block.uri body)) answer ∈
      (networkAfter forms rand site desk throws fate hears servers schedule).history) :
    ∃ block, body = forms.block.toString block ∧
      (∃ heard, (.act (.redis (site (desk worker)).config.dbService
        (.set block._id body (-1) .always)), heard) ∈ before) ∧
      ∀ tx ∈ block._txList,
        0 < submitted forms (forms.transaction.toString tx)
          (networkAfter forms rand site desk throws fate hears servers schedule).history ∨
        ∃ service key text memory, text ∈ itemsIn ((servers service).lookup key) ∧
          tx = (forms.transaction.fromString text (Transaction.fresh memory)).2 := by
  have start : Sourced forms site desk servers ⟨servers, [], 0⟩
      ((noting forms site desk).phases (idle ⟨servers, [], 0⟩ : Pool Worker NetJob
        (NetCommand Node) NetAnswer NetResult Network)) [] :=
    { held := by simp [Discipline.idle_phases]
      stored := ⟨fun service key text member => .inl ⟨service, key, member⟩,
        fun letter member => absurd member List.not_mem_nil⟩
      noted := fun _ _ _ _ _ member => absurd member List.not_mem_nil }
  have sourced := (Discipline.run_keeps (sourced_keeps forms site desk throws fate hears servers)
    (fun _ worker job _ => office_follows forms rand site desk lawful fills worker job)
    (idle ⟨servers, [], 0⟩) schedule (along_of_forall _ _ (fun _ => True) _ _ fun _ _ => trivial)
    (Discipline.idle_tracked _) start).2
  obtain ⟨warranted, known⟩ := sourced.noted worker job before _ answer sent
  obtain ⟨block, rfl, issued, loaded⟩ := warranted.2 rfl
  refine ⟨block, rfl, issued, fun tx member => ?_⟩
  obtain ⟨text, held, memory, rfl⟩ := loaded tx member
  rcases known text held with ⟨service, key, listed⟩ | some
  · exact .inr ⟨service, key, text, memory, listed, rfl⟩
  · left
    rwa [submitted_loads forms lawful _ text some memory]

end Provenance

/-! The root builds a block of what waits in its pool and sends it to its miner. -/

def minerInfo : NodeInfo := { NodeInfo.fresh with _hostport := minerService._hostport }

def waiting (service : Bytes) : Db :=
  if service = rootServerConf.cacheService then
    ((∅ : Db).insert rootServerConf.txPoolKey
      (.list [nodeForms.transaction.toString aliceToBob])).insert rootServerConf.childNodesKey
      (.set [nodeForms.node.toString minerInfo])
  else ∅

def oneTick : List (Choice Bool NetJob) :=
  .start true (.tick quietMoment) :: List.replicate 9 (.advance true)

def sendsBlock {Worker Node : Type} : NetEvent Worker Node → Bool
  | .executed _ _ _ (.act (.sendTo _ uri _)) _ => uri = Block.uri
  | _ => false

theorem sendsBlock_cases {Worker Node : Type} (event : NetEvent Worker Node)
    (sends : sendsBlock event = true) : ∃ worker job before ipport body answer,
      event = .executed worker job before (.act (.sendTo ipport Block.uri body)) answer := by
  cases event with
  | returned worker job result => cases sends
  | executed worker job before command answer =>
      cases command with
      | act effect =>
          cases effect with
          | redis service command => cases sends
          | sendTo ipport uri body =>
              obtain rfl : uri = Block.uri := of_decide_eq_true sends
              exact ⟨worker, job, before, ipport, body, answer, rfl⟩
      | _ => cases sends

theorem blocks_of_submitted_transactions_oneTick :
    ∃ (worker : Bool) (before : List (NetCommand Bool × NetAnswer)) (block : Block),
      ∃ heard, (.act (.redis (rootAndMiner worker).config.dbService
        (.set block._id (nodeForms.block.toString block) (-1) .always)), heard) ∈ before := by
  have sent : (networkAfter nodeForms (fun _ _ => 0) rootAndMiner id (fun _ => false)
      (fun _ => .answered) ownAddress waiting oneTick).history.any sendsBlock = true := by
    decide +kernel
  obtain ⟨event, member, sends⟩ := List.any_eq_true.mp sent
  obtain ⟨worker, job, before, ipport, body, answer, rfl⟩ := sendsBlock_cases event sends
  obtain ⟨block, rfl, issued, -⟩ := blocks_of_submitted_transactions nodeForms (fun _ _ => 0)
    rootAndMiner id (fun _ => false) (fun _ => .answered) ownAddress nodeForms_lawful
    nodeForms_fills waiting oneTick worker job before ipport body answer member
  exact ⟨worker, before, block, issued⟩

end FPayNode.BlockProvenance
