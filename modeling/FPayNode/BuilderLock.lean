import FPayNode.BlockBuilders
import FPayNode.Exclusion

/-!
Whether the builder lock is given back. A root node serves logins, transactions
and timer ticks, interleaved command by command; a tick builds a block under the
lock and sends it to the children that have logged in, whose addresses are what
they claim. `DirectWriter::sendTo` throws where `std::stoi` cannot convert the
port, and where the first send on a new connection does: a socket error, or a
frame that the output buffer has no room for.
-/

namespace FPayNode.BuilderLock

open CommandProgram WorkerPool Exclusion DecimalText RedisServer RedisCache Messages NodeService
open BlockCreation BlockBuilders

/-! `DirectWriter::sendTo`. -/

/-- None when it throws: there is no number, or it leaves an `int`. -/
def stoi (text : Bytes) : Option Int :=
  let unsigned (digits : Bytes) : Option Nat :=
    match digits with
    | [] => none
    | first :: _ => if isDigit first then some (readDigits 0 digits).1 else none
  let inRange (n : Int) : Option Int := if -2 ^ 31 ≤ n ∧ n < 2 ^ 31 then some n else none
  match text.dropWhile isSpace with
  | [] => none
  | sign :: rest =>
      if sign = 45 then (unsigned rest).bind fun n => inRange (-n)
      else if sign = 43 then (unsigned rest).bind fun n => inRange n
      else (unsigned (sign :: rest)).bind fun n => inRange n

/-- The text of the port. Without a colon it is the whole address: `npos + 1` is
zero. None when no port is converted. -/
def portText (ipport : Bytes) : Option Bytes :=
  if ipport.isEmpty then none
  else
    match ipport.findIdx? (fun byte => byte = 58) with
    | some 0 => none
    | some pos => some (ipport.drop (pos + 1))
    | none => some ipport

def sendToThrows (ipport : Bytes) : Bool :=
  match portText ipport with
  | none => false
  | some text => (stoi text).isNone

/-- Whether the `n`-th command, a `sendTo`, is left by an exception: of the port,
or of the send on the connection. -/
def sendThrows (fails : Nat → Bool) (n : Nat) (ipport : Bytes) : Bool :=
  sendToThrows ipport || fails n

/-! The jobs of a root node. -/

inductive RootJob where
  | login (nodeInfo : NodeInfo)
  | transaction (tx : Transaction)
  | tick (moment : Moment)

abbrev RootResult := Except Thrown Unit

section Jobs
variable {Worker : Type} (config : Config) (cereal : Cereal) (rand : UInt32 → Nat → Nat)
variable (self : Worker → FPService)

def rootWorkers (worker : Worker) : RootJob → Calls RootResult
  | .login nodeInfo => do
      let _ ← handleLogin config cereal nodeInfo
      pure (.ok ())
  | .transaction tx => do
      match ← handleTransaction config cereal (self worker) tx with
      | .error thrown => pure (.error thrown)
      | .ok _ => pure (.ok ())
  | .tick moment => generateNewBlock config cereal (self worker) rand moment

/-- Where a call stands with the lock. `lost` is a call that will not give it
back. -/
inductive LockStage where
  | plain
  | trying (id : Bytes)
  | holding (id : Bytes)
  | releasing
  | released
  | lost
  deriving DecidableEq

def inside : LockStage → Bool
  | .holding _ => true
  | .releasing => true
  | _ => false

/-- Commands that can touch the record of the lock only as an account or as a
block. -/
def Aside : Effect → Prop
  | .redis _ (.set _ _ _ condition) => condition = .always
  | .redis _ (.rpush key _) => key ≠ builderLock
  | .redis _ (.sadd key _) => key ≠ builderLock
  | .redis _ (.del key) => key ≠ builderLock
  | _ => True

def LockAllowed : LockStage → Effect → Prop
  | .plain, command => Aside command
  | .trying id, command => command = .redis config.cacheService (.set builderLock id 0 .nx)
  | .holding _, command => Aside command
  | .releasing, command => command = .redis config.cacheService (.del builderLock)
  | .released, _ => False
  | .lost, _ => False

def nextLockStage : LockStage → Effect → Answer → LockStage
  | .plain, _, _ => .plain
  | .trying id, _, answer => if statusAnswer answer then .holding id else .released
  | .holding id, .redis service (.get key), answer =>
      if service = config.cacheService ∧ key = builderLock then
        if (textOf [] answer).2 = [] ∨ (textOf [] answer).2 = id then .releasing else .lost
      else .holding id
  | .holding _, .sendTo _ _ _, .threw => .lost
  | .holding id, _, _ => .holding id
  | .releasing, _, _ => .released
  | .released, _, _ => .released
  | .lost, _, _ => .lost

def locking : Discipline Worker RootJob Effect Answer LockStage where
  entry worker := fun
    | .tick _ => .trying (self worker)._id
    | _ => .plain
  allowed := LockAllowed config
  next := nextLockStage config

/-- A call is not left from inside. -/
def Left {Result : Type} (stage : LockStage) (_ : Result) : Prop := inside stage = false

/-- The keys that a root node writes are not the lock. -/
structure LockApart : Prop where
  pool : config.txPoolKey ≠ builderLock
  children : config.childNodesKey ≠ builderLock
  last : config.lastBlockKey ≠ builderLock

/-! Every program follows the stages. -/

theorem handleTransaction_aside (apart : LockApart config) (node : FPService) (tx : Transaction) :
    (handleTransaction config cereal node tx).Issues Aside := by
  simp only [handleTransaction]
  apply Program.issues_bind
  · apply Program.issues_bind
    · exact get_issues Aside _ _ _ trivial
    · rintro ⟨found, val⟩
      cases found <;> exact trivial
  · rintro ⟨found, balance⟩
    split
    · exact trivial
    · cases node._nodeRole with
      | none => exact trivial
      | miner =>
          simp only [forward]
          split
          · exact trivial
          · refine ⟨trivial, fun answer => ?_⟩
            cases answer <;> exact trivial
      | root =>
          have submitted : Program.Issues Aside
              (if (cereal.transaction.toString tx).isEmpty then pure (.ok false)
              else do
                let _ ← enQueue config.cacheService config.txPoolKey
                  (cereal.transaction.toString tx)
                pure (.ok true) : Calls (Except Thrown Bool)) := by
            split
            · exact trivial
            · exact Program.issues_bind Aside _ _ (enQueue_issues Aside _ _ _ apart.pool)
                fun _ => trivial
          dsimp only
          split
          · apply Program.issues_bind
            · exact incrBy_issues Aside _ _ _ _ trivial
            · intro _
              apply Program.issues_bind
              · exact incrBy_issues Aside _ _ _ _ trivial
              · exact fun _ => submitted
          · exact submitted

theorem handleLogin_aside (apart : LockApart config) (nodeInfo : NodeInfo) :
    (handleLogin config cereal nodeInfo).Issues Aside := by
  simp only [handleLogin]
  split
  · exact trivial
  · exact addToSet_issues Aside _ _ _ apart.children

/-- The commands that leave the lock in the hands of the call. -/
def Steady (id : Bytes) (command : Effect) : Prop :=
  (locking config self).allowed (.holding id) command ∧
    ∀ answer, (locking config self).next (.holding id) command answer = .holding id

theorem createBlock_steady (apart : LockApart config) (id : Bytes) (moment : Moment)
    (block : Block) :
    (createBlock config cereal rand moment block).Issues (Steady config self id) := by
  have stored : ∀ block : Block, (storeBlock config cereal block).Issues (Steady config self id) := by
    intro block
    simp only [storeBlock]
    split
    · exact trivial
    · exact set_issues _ _ _ _ _ ⟨rfl, fun _ => rfl⟩
  rw [createBlock_eq]
  apply Program.issues_bind
  · simp only [getBlock]
    apply Program.issues_bind
    · apply get_issues
      refine ⟨trivial, fun answer => ?_⟩
      exact if_neg fun same => apart.last same.2
    · exact fun _ => trivial
  · intro found
    apply Program.issues_bind
    · exact deQueueAll_issues _ _ _ _ ⟨trivial, fun _ => rfl⟩ ⟨apart.pool, fun _ => rfl⟩
    · intro batch
      simp only [afterDrain]
      split
      · apply Program.issues_bind _ _ _ (stored _)
        intro _
        exact Program.issues_bind _ _ _ (stored _) fun _ => trivial
      · exact trivial

/-- A broadcast keeps the lock, unless it is left by an exception. -/
def Broadcast (id : Bytes) (stage : LockStage) (result : Except Thrown Bool) : Prop :=
  match result with
  | .error _ => stage = .lost
  | .ok _ => stage = .holding id

theorem broadcast_follows (id : Bytes) (block : Block) :
    (locking config self).Follows (Broadcast id) (.holding id)
      (broadcast config cereal block) := by
  apply BuilderStages.broadcast_disciplined
  · exact trivial
  · exact fun answer => rfl
  · exact fun hostport => trivial
  · exact fun hostport => rfl
  · intro hostport answer returned
    cases answer with
    | threw => exact absurd rfl returned
    | reply reply => rfl
    | lost => rfl
    | sent => rfl
  · exact fun sent => rfl

theorem releaseLock_follows (node : FPService) :
    (locking config self).Follows Left (.holding node._id)
      (releaseLock config node builderLock) := by
  have named : builderLock ≠ [] := by decide
  simp only [releaseLock, get_form, delete_form, named, ↓reduceIte, Program.issue_bind,
    Program.finish_bind]
  refine ⟨trivial, fun answer => ?_⟩
  change (locking config self).Follows Left (if config.cacheService = config.cacheService ∧
    builderLock = builderLock then _ else _) _
  rw [if_pos ⟨rfl, rfl⟩]
  by_cases mine : (textOf [] answer).2 = [] ∨ (textOf [] answer).2 = node._id
  · rw [if_pos mine]
    simp only [List.isEmpty_iff, Bool.or_eq_true, decide_eq_true_eq, mine, ↓reduceIte]
    exact ⟨rfl, fun _ => rfl⟩
  · rw [if_neg mine]
    simp only [List.isEmpty_iff, Bool.or_eq_true, decide_eq_true_eq, mine, ↓reduceIte]
    exact rfl

theorem generateNewBlock_follows (apart : LockApart config) (node : FPService)
    (moment : Moment) :
    (locking config self).Follows Left (.trying node._id)
      (generateNewBlock config cereal node rand moment) := by
  have lock : builderLock ≠ [] := by decide
  simp only [generateNewBlock]
  split
  · exact rfl
  · simp only [tryLock, setNX_form, lock, ↓reduceIte, Program.issue_bind, Program.finish_bind]
    refine ⟨rfl, fun answer => ?_⟩
    change (locking config self).Follows Left
      (if statusAnswer answer then .holding node._id else .released) _
    dsimp only
    cases statusAnswer answer with
    | false => exact rfl
    | true =>
        apply Discipline.follows_bind _ (fun stage _ => stage = .holding node._id)
        · exact Discipline.follows_steady _ _ _ _
            (createBlock_steady config cereal rand self apart node._id moment _) fun _ => rfl
        · rintro stage ⟨created, block⟩ same
          subst same
          have released : (locking config self).Follows Left (.holding node._id)
              (releaseLock config node builderLock >>= fun _ => .finish (.ok ()) :
                Calls (Except Thrown Unit)) := by
            apply Discipline.follows_bind _ Left
            · exact releaseLock_follows config self node
            · exact fun _ _ left => left
          cases created with
          | false => exact released
          | true =>
              apply Discipline.follows_bind _ (Broadcast node._id)
              · exact broadcast_follows config cereal self node._id block
              · rintro stage sent after
                cases sent with
                | error thrown =>
                    rw [show stage = .lost from after]
                    exact rfl
                | ok _ =>
                    rw [show stage = .holding node._id from after]
                    exact released

theorem rootWorkers_follows (apart : LockApart config) (worker : Worker) (job : RootJob) :
    (locking config self).Follows Left ((locking config self).entry worker job)
      (rootWorkers config cereal rand self worker job) := by
  have steady : ∀ program : Calls RootResult, program.Issues Aside →
      (locking config self).Follows Left .plain program := by
    intro program aside
    apply Discipline.follows_steady
    · exact Program.issues_mono _ _ _ (fun command allowed => ⟨allowed, fun _ => rfl⟩) aside
    · exact fun _ => rfl
  cases job with
  | login nodeInfo =>
      apply steady
      exact Program.issues_bind Aside _ _ (handleLogin_aside config cereal apart nodeInfo)
        fun _ => trivial
  | transaction tx =>
      apply steady
      apply Program.issues_bind Aside _ _ (handleTransaction_aside config cereal apart _ tx)
      intro result
      cases result <;> exact trivial
  | tick moment => exact generateNewBlock_follows config cereal rand self apart (self worker) moment

/-- Only a tick is inside. -/
theorem inside_tick (worker : Worker) (call : Running RootJob Effect Answer RootResult)
    (within : inside ((locking config self).phaseOf worker call) = true) :
    ∃ moment, call.job = .tick moment := by
  have plain : ∀ done : List (Effect × Answer),
      done.foldl (fun stage sent => nextLockStage config stage sent.1 sent.2) .plain = .plain := by
    intro done
    induction done with
    | nil => rfl
    | cons sent done ih => exact ih
  obtain ⟨job, done, rest⟩ := call
  cases job with
  | login nodeInfo =>
      have same : (locking config self).phaseOf worker ⟨.login nodeInfo, done, rest⟩ = .plain :=
        plain done
      rw [same] at within
      cases within
  | transaction tx =>
      have same : (locking config self).phaseOf worker ⟨.transaction tx, done, rest⟩ = .plain :=
        plain done
      rw [same] at within
      cases within
  | tick moment => exact ⟨moment, rfl⟩

end Jobs

/-! Runs. -/

section Runs
variable {Worker : Type} [DecidableEq Worker] (config : Config)

/-- Whether the worker has taken the lock and not deleted it since, in this call
or in an earlier one. -/
def heldBy (worker : Worker) (history : List (Event Worker RootJob Effect Answer RootResult)) :
    Bool :=
  history.foldl (fun held => fun
    | .executed other _ _ command answer =>
        if other = worker then lockStep config held (command, answer) else held
    | .returned _ _ _ => held) false

/-- The record of the lock is not paid to or from as an account, no block is
stored under its key, and no `sendTo` throws. -/
def Spares (throws : Bytes → Bool) : Effect → Prop
  | .redis service (.incrBy key _) => service = config.cacheService → key ≠ builderLock
  | .redis service (.set key _ _ .always) => service = config.cacheService → key ≠ builderLock
  | .sendTo ipport _ _ => throws ipport = false
  | _ => True

def Sparing (throws : Nat → Bytes → Bool)
    (pool : Pool Worker RootJob Effect Answer RootResult (Servers × Nat)) :
    Choice Worker RootJob → Prop
  | .start _ _ => True
  | .advance worker =>
      ∀ command ∈ nextCommand pool worker, Spares config (throws pool.shared.2) command

instance (throws : Bytes → Bool) : ∀ command, Decidable (Spares config throws command)
  | .redis service (.incrBy key _) =>
      inferInstanceAs (Decidable (service = config.cacheService → key ≠ builderLock))
  | .redis service (.set key _ _ .always) =>
      inferInstanceAs (Decidable (service = config.cacheService → key ≠ builderLock))
  | .sendTo ipport _ _ => inferInstanceAs (Decidable (throws ipport = false))
  | .redis _ (.get _) => .isTrue trivial
  | .redis _ (.set _ _ _ .xx) => .isTrue trivial
  | .redis _ (.set _ _ _ .nx) => .isTrue trivial
  | .redis _ (.del _) => .isTrue trivial
  | .redis _ (.rpush _ _) => .isTrue trivial
  | .redis _ (.lrange _ _ _) => .isTrue trivial
  | .redis _ (.sadd _ _) => .isTrue trivial
  | .redis _ (.smembers _) => .isTrue trivial

instance (throws : Nat → Bytes → Bool)
    (pool : Pool Worker RootJob Effect Answer RootResult (Servers × Nat)) :
    ∀ choice, Decidable (Sparing config throws pool choice)
  | .start _ _ => .isTrue trivial
  | .advance worker => inferInstanceAs (Decidable (∀ command ∈ nextCommand pool worker, _))

def lockRecord (shared : Servers) : Option Value :=
  (shared config.cacheService).lookup builderLock

/-- The lock exists exactly while a call is inside, and holds its id. -/
structure Guarding (shared : Servers) (phases : Worker → Option LockStage)
    (history : List (Event Worker RootJob Effect Answer RootResult)) : Prop where
  exclusive : Exclusive inside (lockRecord config shared ≠ none) phases
  attended : Attended inside (lockRecord config shared ≠ none) phases
  owned : ∀ worker id, phases worker = some (.holding id) →
    lockRecord config shared = some (.string id)
  kept : ∀ worker, phases worker ≠ some .lost
  recorded : ∀ worker, heldBy config worker history = true → Within inside (phases worker)

/-- Commands beside the lock leave its record as it is. -/
theorem aside_lockRecord (throws : Bytes → Bool) (shared : Servers) (command : Effect)
    (aside : Aside command) (spares : Spares config throws command) :
    lockRecord config (serve throws command shared).2 = lockRecord config shared := by
  cases command with
  | sendTo ipport uri body => rfl
  | redis service command =>
      apply serve_lookup_apart
      intro same db
      cases command with
      | get key => rw [exec_get_db]
      | set key value duration condition =>
          have always : condition = .always := aside
          subst always
          exact exec_set_other db key value _ duration _ (Ne.symm (spares same.symm))
      | del key => exact exec_del_other db key _ (Ne.symm aside)
      | incrBy key increment =>
          exact afterIncr_lookup_other db key _ increment (Ne.symm (spares same.symm))
      | rpush key values => exact exec_rpush_other db key _ values (Ne.symm aside)
      | lrange key start stop => rw [exec_lrange_db]
      | sadd key member => exact exec_sadd_other db key _ member (Ne.symm aside)
      | smembers key => rw [exec_smembers_db]

theorem heldBy_executed (worker other : Worker)
    (history : List (Event Worker RootJob Effect Answer RootResult)) (job : RootJob)
    (before : List (Effect × Answer)) (command : Effect) (answer : Answer) :
    heldBy config other (history ++ [.executed worker job before command answer]) =
      if worker = other then lockStep config (heldBy config other history) (command, answer)
      else heldBy config other history := by
  simp [heldBy]

/-- What a step of one worker has to give for the lock to stay guarded. -/
theorem guarding_move (shared after : Servers) (phases : Worker → Option LockStage)
    (history : List (Event Worker RootJob Effect Answer RootResult)) (worker : Worker)
    (stage next : LockStage) (job : RootJob) (before : List (Effect × Answer))
    (command : Effect) (answer : Answer) (guarding : Guarding config shared phases history)
    (found : phases worker = some stage) (proper : next ≠ .lost)
    (entering : inside next = true → inside stage = true ∨ lockRecord config shared = none)
    (owned : ∀ id, next = .holding id → lockRecord config after = some (.string id))
    (taking : inside next = true → lockRecord config after ≠ none)
    (keeping : inside stage = true ∨ lockRecord config shared = none ∨
      lockRecord config after = lockRecord config shared)
    (leaving : lockRecord config after ≠ none →
      inside next = true ∨ lockRecord config shared ≠ none ∧ inside stage = false)
    (recorded : lockStep config (heldBy config worker history) (command, answer) = true →
      inside next = true) :
    Guarding config after (Function.update phases worker (some next))
      (history ++ [.executed worker job before command answer]) := by
  have here : Within inside (phases worker) ↔ inside stage = true := by
    rw [found, within_some]
  -- Nobody else is inside when this worker is, or when the lock is free.
  have others : ∀ other, other ≠ worker → Within inside (phases other) →
      inside stage = false ∧ lockRecord config shared ≠ none := by
    intro other different within
    refine ⟨?_, guarding.exclusive.held other within⟩
    cases mine : inside stage with
    | false => rfl
    | true => exact absurd (guarding.exclusive.alone other worker within (here.mpr mine)) different
  have same : ∀ other, other ≠ worker → Within inside (phases other) →
      lockRecord config after = lockRecord config shared := by
    intro other different within
    obtain ⟨out, taken⟩ := others other different within
    rcases keeping with mine | free | unchanged
    · rw [out] at mine
      cases mine
    · exact absurd free taken
    · exact unchanged
  constructor
  · apply exclusive_move worker _ guarding.exclusive
    · rw [within_some, here]
      intro enters
      exact (entering enters).imp_right fun free taken => taken free
    · rw [within_some]
      exact taking
    · rintro ⟨other, different, within⟩ taken
      rwa [same other different within]
  · apply attended_move worker _ guarding.attended
    rw [within_some, here, Bool.not_eq_true]
    exact leaving
  · intro other id lookup
    rcases update_cases phases worker other _ _ lookup with ⟨-, arrived⟩ | ⟨different, was⟩
    · exact owned id (Option.some.inj arrived)
    · rw [same other different ⟨_, was, rfl⟩]
      exact guarding.owned other id was
  · intro other lookup
    rcases update_cases phases worker other _ _ lookup with ⟨-, arrived⟩ | ⟨-, was⟩
    · exact proper (Option.some.inj arrived)
    · exact guarding.kept other was
  · intro other held
    rw [heldBy_executed] at held
    by_cases mine : worker = other
    · subst mine
      rw [if_pos rfl] at held
      rw [Function.update_self, within_some]
      exact recorded held
    · rw [if_neg mine] at held
      rw [Function.update_of_ne (Ne.symm mine)]
      exact guarding.recorded other held

/-- A worker that starts or ends a call outside. -/
theorem guarding_outside (shared : Servers) (phases : Worker → Option LockStage)
    (history : List (Event Worker RootJob Effect Answer RootResult)) (worker : Worker)
    (next : Option LockStage) (guarding : Guarding config shared phases history)
    (was : ¬ Within inside (phases worker)) (out : ¬ Within inside next)
    (proper : next ≠ some .lost) :
    Guarding config shared (Function.update phases worker next) history := by
  constructor
  · exact exclusive_move worker next guarding.exclusive (fun enters => absurd enters out)
      (fun enters => absurd enters out) fun _ taken => taken
  · exact attended_move worker next guarding.attended fun taken => .inr ⟨taken, was⟩
  · intro other id lookup
    rcases update_cases phases worker other _ _ lookup with ⟨-, arrived⟩ | ⟨-, before⟩
    · exact absurd ⟨_, arrived, rfl⟩ out
    · exact guarding.owned other id before
  · intro other lookup
    rcases update_cases phases worker other _ _ lookup with ⟨-, arrived⟩ | ⟨-, before⟩
    · exact proper arrived
    · exact guarding.kept other before
  · intro other held
    by_cases mine : other = worker
    · subst mine
      exact absurd (guarding.recorded other held) was
    · rw [Function.update_of_ne mine]
      exact guarding.recorded other held

theorem aside_lockStep (held : Bool) (command : Effect) (answer : Answer) (aside : Aside command) :
    lockStep config held (command, answer) = held := by
  cases command with
  | sendTo ipport uri body => rfl
  | redis service command =>
      cases command with
      | set key value duration condition =>
          have always : condition = .always := aside
          subst always
          rfl
      | del key => exact if_neg fun same => aside same.2
      | get key => rfl
      | incrBy key increment => rfl
      | rpush key values => rfl
      | lrange key start stop => rfl
      | sadd key member => rfl
      | smembers key => rfl

section Steps
variable (throws : Bytes → Bool) (shared : Servers) (phases : Worker → Option LockStage)
variable (history : List (Event Worker RootJob Effect Answer RootResult)) (worker : Worker)
variable (job : RootJob) (before : List (Effect × Answer))
variable (guarding : Guarding config shared phases history)
include guarding

/-- A command beside the lock, from a stage to one on the same side. -/
theorem guarding_aside (stage next : LockStage) (command : Effect) (answer : Answer)
    (found : phases worker = some stage) (proper : next ≠ .lost) (aside : Aside command)
    (spares : Spares config throws command) (side : inside next = inside stage)
    (owned : ∀ id, next = .holding id → stage = .holding id) :
    Guarding config (serve throws command shared).2 (Function.update phases worker (some next))
      (history ++ [.executed worker job before command answer]) := by
  have same := aside_lockRecord config throws shared command aside spares
  have here : Within inside (phases worker) ↔ inside stage = true := by
    rw [found, within_some]
  apply guarding_move config shared _ phases history worker stage next job before command answer
    guarding found proper
  · rw [side]
    exact .inl
  · intro id holding
    rw [same]
    exact guarding.owned worker id (by rw [found, owned id holding])
  · rw [side, same]
    exact fun within => guarding.exclusive.held worker (here.mpr within)
  · exact .inr (.inr same)
  · rw [same, side]
    intro taken
    cases inside stage with
    | true => exact .inl rfl
    | false => exact .inr ⟨taken, rfl⟩
  · rw [aside_lockStep config _ command answer aside, side]
    exact fun held => here.mp (guarding.recorded worker held)

theorem guarding_trying (id : Bytes) (found : phases worker = some (.trying id)) :
    Guarding config
      (serve throws (.redis config.cacheService (.set builderLock id 0 .nx)) shared).2
      (Function.update phases worker (some (nextLockStage config (.trying id)
        (.redis config.cacheService (.set builderLock id 0 .nx))
        (serve throws (.redis config.cacheService (.set builderLock id 0 .nx)) shared).1)))
      (history ++ [.executed worker job before
        (.redis config.cacheService (.set builderLock id 0 .nx))
        (serve throws (.redis config.cacheService (.set builderLock id 0 .nx)) shared).1]) := by
  have out : heldBy config worker history = true → False := by
    intro held
    obtain ⟨stage, lookup, within⟩ := guarding.recorded worker held
    rw [found] at lookup
    cases lookup
    cases within
  have served := serve_setNX throws shared config.cacheService builderLock id 0
  by_cases free : (shared config.cacheService).lookup builderLock = none
  · have taken : lockRecord config (Function.update shared config.cacheService
        ((shared config.cacheService).insert builderLock (.string id))) = some (.string id) := by
      simp [lockRecord]
    rw [if_pos free] at served
    rw [served]
    apply guarding_move config shared _ phases history worker (.trying id) (.holding id) job
      before _ _ guarding found (by simp)
    · exact fun _ => .inr free
    · intro other same
      cases same
      exact taken
    · simp [taken]
    · exact .inr (.inl free)
    · exact fun _ => .inl rfl
    · exact fun _ => rfl
  · rw [if_neg free] at served
    rw [served]
    apply guarding_move config shared shared phases history worker (.trying id) .released job
      before _ _ guarding found (by simp)
    · intro within
      cases within
    · intro other holding
      cases holding
    · intro within
      cases within
    · exact .inr (.inr rfl)
    · exact fun taken => .inr ⟨taken, rfl⟩
    · exact fun held => (out held).elim

theorem guarding_releasing (found : phases worker = some .releasing) (answer : Answer) :
    Guarding config (serve throws (.redis config.cacheService (.del builderLock)) shared).2
      (Function.update phases worker (some .released))
      (history ++ [.executed worker job before
        (.redis config.cacheService (.del builderLock)) answer]) := by
  have gone : lockRecord config
      (serve throws (.redis config.cacheService (.del builderLock)) shared).2 = none := by
    simp [lockRecord, serve, exec]
  apply guarding_move config shared _ phases history worker .releasing .released job before _ _
    guarding found (by simp)
  · intro within
    cases within
  · intro id holding
    cases holding
  · intro within
    cases within
  · exact .inl rfl
  · exact fun taken => absurd gone taken
  · intro held
    have step : lockStep config (heldBy config worker history)
        (.redis config.cacheService (.del builderLock), answer) = false := if_pos ⟨rfl, rfl⟩
    rw [step] at held
    cases held

/-- Inside, a command leads to the release when it reads the lock, and leaves
the call where it is otherwise. -/
theorem guarding_holding (id : Bytes) (command : Effect)
    (found : phases worker = some (.holding id)) (aside : Aside command)
    (spares : Spares config throws command) :
    Guarding config (serve throws command shared).2
      (Function.update phases worker (some (nextLockStage config (.holding id) command
        (serve throws command shared).1)))
      (history ++ [.executed worker job before command (serve throws command shared).1]) := by
  have stays : nextLockStage config (.holding id) command (serve throws command shared).1 =
      .holding id ∨
      nextLockStage config (.holding id) command (serve throws command shared).1 = .releasing := by
    cases command with
    | sendTo ipport uri body =>
        have silent : throws ipport = false := spares
        simp [serve, silent, nextLockStage]
    | redis service command =>
        cases command with
        | get key =>
            by_cases lock : service = config.cacheService ∧ key = builderLock
            · obtain ⟨rfl, rfl⟩ := lock
              have record : (shared config.cacheService).lookup builderLock = some (.string id) :=
                guarding.owned worker id found
              simp [serve, exec, record, nextLockStage, textOf]
            · exact .inl (if_neg lock)
        | set key value duration condition => exact .inl rfl
        | del key => exact .inl rfl
        | incrBy key increment => exact .inl rfl
        | rpush key values => exact .inl rfl
        | lrange key start stop => exact .inl rfl
        | sadd key member => exact .inl rfl
        | smembers key => exact .inl rfl
  rcases stays with same | released
  · rw [same]
    exact guarding_aside config throws shared phases history worker job before guarding
      (.holding id) (.holding id) command _ found (by simp) aside spares rfl fun _ same => same
  · rw [released]
    exact guarding_aside config throws shared phases history worker job before guarding
      (.holding id) .releasing command _ found (by simp) aside spares rfl fun _ same => by
        cases same

end Steps

theorem heldBy_returned (worker other : Worker)
    (history : List (Event Worker RootJob Effect Answer RootResult)) (job : RootJob)
    (result : RootResult) :
    heldBy config other (history ++ [.returned worker job result]) =
      heldBy config other history := by
  simp [heldBy]

theorem guarding_keeps (self : Worker → FPService) (throws : Nat → Bytes → Bool) :
    (locking config self).Keeps (sending throws) Left (Sparing config throws)
      (fun shared => Guarding config shared.1) where
  begins := by
    intro pool worker job absent _ guarding
    have out : ∀ job, inside ((locking config self).entry worker job) = false ∧
        (locking config self).entry worker job ≠ .lost := by
      intro job
      cases job with
      | login nodeInfo => exact ⟨rfl, by simp [locking]⟩
      | transaction tx => exact ⟨rfl, by simp [locking]⟩
      | tick moment => exact ⟨rfl, by simp [locking]⟩
    apply guarding_outside config _ _ _ worker _ guarding
    · rw [absent]
      exact not_within_none inside
    · rw [within_some, (out job).1]
      simp
    · intro lost
      exact (out job).2 (Option.some.inj lost)
  issues := by
    intro pool worker call command next running rest allowed meets guarding
    have found := (locking config self).phases_running pool worker call running
    have spares : Spares config (throws pool.shared.2) command :=
      meets command (nextCommand_eq pool worker call command next running rest)
    generalize (locking config self).phaseOf worker call = stage at allowed found
    cases stage with
    | plain =>
        exact guarding_aside config (throws pool.shared.2) _ _ _ worker _ _ guarding .plain .plain
          command _ found (by simp) allowed spares rfl fun _ same => same
    | trying id =>
        have one : command = .redis config.cacheService (.set builderLock id 0 .nx) := allowed
        subst one
        exact guarding_trying config (throws pool.shared.2) _ _ _ worker _ _ guarding id found
    | holding id =>
        exact guarding_holding config (throws pool.shared.2) _ _ _ worker _ _ guarding id command
          found allowed spares
    | releasing =>
        have one : command = .redis config.cacheService (.del builderLock) := allowed
        subst one
        exact guarding_releasing config (throws pool.shared.2) _ _ _ worker _ _ guarding found _
    | released => exact allowed.elim
    | lost => exact allowed.elim
  returns := by
    intro shared phases history worker job stage result found left guarding
    have out : ¬ Within inside (phases worker) := by
      rw [found, within_some]
      simp [show inside stage = false from left]
    have after := guarding_outside config shared.1 phases history worker none guarding out
      (not_within_none inside) (by simp)
    exact
      { after with
        recorded := by
          intro other held
          rw [heldBy_returned] at held
          exact after.recorded other held }

/-- A worker is in the middle of a call of `generateNewBlock`. -/
def Building (pool : Pool Worker RootJob Effect Answer RootResult (Servers × Nat))
    (worker : Worker) : Prop :=
  ∃ call moment, pool.running worker = some call ∧ call.job = .tick moment

/-- In every run in which no `sendTo` throws, nobody pays to or from the lock and
no block is stored under its key: who holds the lock is still in its call, and
while nobody is in one there is no lock. -/
theorem builder_lock_returned (cereal : Cereal) (rand : UInt32 → Nat → Nat)
    (self : Worker → FPService) (throws : Nat → Bytes → Bool) (apart : LockApart config)
    (start : Servers) (free : (start config.cacheService).lookup builderLock = none)
    (schedule : List (Choice Worker RootJob))
    (sparing : Along (sending throws) (rootWorkers config cereal rand self)
      (Sparing config throws) (idle (start, 0)) schedule) :
    let pool := runPool (sending throws) (rootWorkers config cereal rand self)
      (idle (start, 0)) schedule
    (∀ worker, heldBy config worker pool.history = true → Building pool worker) ∧
      ((∀ worker, ¬ Building pool worker) →
        (pool.shared.1 config.cacheService).lookup builderLock = none) := by
  intro pool
  have untaken : ¬ lockRecord config start ≠ none := fun taken => taken free
  obtain ⟨-, guarding⟩ := Discipline.run_keeps (guarding_keeps config self throws)
    (fun _ worker job _ => rootWorkers_follows config cereal rand self apart worker job)
    (idle (start, 0)) schedule sparing (Discipline.idle_tracked (start, 0))
    { exclusive := by
        rw [Discipline.idle_phases]
        exact exclusive_idle inside _
      attended := fun taken => absurd taken untaken
      owned := by simp [Discipline.idle_phases]
      kept := by simp [Discipline.idle_phases]
      recorded := by simp [heldBy] }
  have busy : ∀ worker, Within inside ((locking config self).phases pool worker) →
      Building pool worker := by
    rintro worker ⟨stage, lookup, within⟩
    obtain ⟨call, running, same⟩ := Option.map_eq_some_iff.mp lookup
    subst same
    obtain ⟨moment, tick⟩ := inside_tick config self worker call within
    exact ⟨call, moment, running, tick⟩
  constructor
  · exact fun worker held => busy worker (guarding.recorded worker held)
  · intro quiet
    by_contra taken
    obtain ⟨worker, within⟩ := guarding.attended taken
    exact quiet worker (busy worker within)

end Runs

/-- A child logs in from an address, a payment reaches the pool, and a tick
builds a block of it and sends it to the child. -/
def oneRound (hostport : String) : List (Choice Unit RootJob) :=
  [.start () (.login ⟨[], ascii hostport, 0, 0⟩), .advance (),
    .start () (.transaction ⟨ascii "t1", ascii "alice", ascii "bob", 4, 0⟩), .advance (), .advance (),
    .start () (.tick ⟨0, 1530000000, fun _ => ⟨0, 0⟩⟩)] ++ List.replicate 9 (.advance ())

def afterRound (fails : Nat → Bool) (hostport : String) :
    Pool Unit RootJob Effect Answer RootResult (Servers × Nat) :=
  runPool (sending (sendThrows fails))
    (rootWorkers rootServerConf CerealJson.cerealJson glibcRand fun _ => rootService)
    (idle (fun _ => ∅, 0)) (oneRound hostport)

theorem builder_lock_returned_round :
    ((afterRound (fun _ => false) "127.0.0.1:9091").running ()).isNone = true ∧
      let pool := runPool (sending (sendThrows fun _ => false))
        (rootWorkers rootServerConf CerealJson.cerealJson glibcRand fun _ => rootService)
        (idle (fun _ => ∅, 0)) (oneRound "127.0.0.1:9091")
      (∀ worker, heldBy rootServerConf worker pool.history = true → Building pool worker) ∧
        ((∀ worker, ¬ Building pool worker) →
          (pool.shared.1 rootServerConf.cacheService).lookup builderLock = none) :=
  ⟨by decide +kernel, builder_lock_returned rootServerConf CerealJson.cerealJson glibcRand
    (fun _ => rootService) (sendThrows fun _ => false)
    ⟨by decide +kernel, by decide +kernel, by decide +kernel⟩ (fun _ => ∅) rfl
    (oneRound "127.0.0.1:9091") (by decide +kernel)⟩

/-- The port of a child that logged in is no number, or the send to a child with
a proper address throws: the call is left by the exception, and the lock stays. -/
theorem thrown_broadcast_keeps_lock :
    (((afterRound (fun _ => false) "child:port").running ()).isNone = true ∧
      ((afterRound (fun _ => false) "child:port").shared.1
        rootServerConf.cacheService).lookup builderLock = some (.string rootService._id)) ∧
    ((afterRound (fun _ => true) "127.0.0.1:9091").running ()).isNone = true ∧
      ((afterRound (fun _ => true) "127.0.0.1:9091").shared.1
        rootServerConf.cacheService).lookup builderLock = some (.string rootService._id) := by
  refine ⟨⟨?_, ?_⟩, ?_, ?_⟩
  all_goals decide +kernel

end FPayNode.BuilderLock
