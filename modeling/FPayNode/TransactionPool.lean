import FPayNode.NodeService
import FPayNode.RootTransaction
import FPayNode.WorkerPool
import Mathlib.Data.Multiset.AddSub

/-!
The transaction pool between the workers that append to it and the block
builder that drains it. Draining takes two commands, a read of the whole list
and a delete, and an append can fall between them.
-/

namespace FPayNode.TransactionPool

open CommandProgram WorkerPool DecimalText RedisServer RedisCache Messages RootTransaction

inductive PoolJob where
  | push (text : Bytes)
  | drain

/-- An append returns no items. -/
abbrev PoolResult := Bool × List Bytes

abbrev PoolEvent (Worker : Type) := Event Worker PoolJob Effect Answer PoolResult

def poolWorkers {Worker : Type} (config : Config) (_ : Worker) : PoolJob → Calls PoolResult
  | .push text => do
      let pushed ← enQueue config.cacheService config.txPoolKey text
      pure (pushed, [])
  | .drain => deQueueAll config.cacheService config.txPoolKey []

/-! What a history says about the pool. -/

section History
variable {Worker : Type}

def pushedBy : PoolEvent Worker → List Bytes
  | .executed _ _ _ (.redis _ (.rpush _ values)) _ => values
  | _ => []

/-- The items that a completed drain returned. -/
def returnedBy : PoolEvent Worker → List Bytes
  | .returned _ _ (true, items) => items
  | _ => []

def enqueued (history : List (PoolEvent Worker)) : List Bytes := history.flatMap pushedBy

def drained (history : List (PoolEvent Worker)) : List Bytes := history.flatMap returnedBy

/-- Appends since the last read of the pool, and appends that fell between a
read and the delete after it. -/
structure Crossing where
  since : Nat
  crossed : Nat

def observe (crossing : Crossing) : PoolEvent Worker → Crossing
  | .executed _ _ _ (.redis _ (.lrange _ _ _)) _ => { crossing with since := 0 }
  | .executed _ _ _ (.redis _ (.rpush _ _)) _ => { crossing with since := crossing.since + 1 }
  | .executed _ _ _ (.redis _ (.del _)) _ =>
      { crossing with crossed := crossing.crossed + crossing.since }
  | _ => crossing

def crossings (history : List (PoolEvent Worker)) : Crossing := history.foldl observe ⟨0, 0⟩

theorem crossings_append (history : List (PoolEvent Worker)) (event : PoolEvent Worker) :
    crossings (history ++ [event]) = observe (crossings history) event := by
  simp [crossings]

theorem enqueued_append (history : List (PoolEvent Worker)) (event : PoolEvent Worker) :
    enqueued (history ++ [event]) = enqueued history ++ pushedBy event := by
  simp [enqueued]

theorem drained_append (history : List (PoolEvent Worker)) (event : PoolEvent Worker) :
    drained (history ++ [event]) = drained history ++ returnedBy event := by
  simp [drained]

end History

/-! The discipline of the pool. -/

inductive Phase where
  | pushing (text : Bytes)
  | reading
  | read (items : List Bytes)
  | deleted (items : List Bytes)
  | ended

section Discipline
variable (Worker : Type) (config : Config)

def phaseCommand : Phase → Option Effect
  | .pushing text => some (.redis config.cacheService (.rpush config.txPoolKey [text]))
  | .reading => some (.redis config.cacheService (.lrange config.txPoolKey 0 (-1)))
  | .read _ => some (.redis config.cacheService (.del config.txPoolKey))
  | .deleted _ => none
  | .ended => none

def nextPhase (answer : Answer) : Phase → Phase
  | .pushing _ => .ended
  | .reading =>
      match itemsOf answer with
      | none => .ended
      | some items => .read items
  | .read items => if anyReply answer then .deleted items else .ended
  | .deleted items => .deleted items
  | .ended => .ended

def pooling : Discipline Worker PoolJob Effect Answer Phase where
  entry _ := fun
    | .push text => .pushing text
    | .drain => .reading
  allowed phase command := phaseCommand config phase = some command
  next phase _ answer := nextPhase answer phase

/-- A drain returns what it read, and only after the delete. -/
def Hands : Phase → PoolResult → Prop
  | .deleted items, result => result = (true, items)
  | _, result => result.1 = false ∨ result.2 = []

variable {Worker}

theorem poolWorkers_follows (named : config.txPoolKey ≠ []) (worker : Worker) (job : PoolJob) :
    (pooling Worker config).Follows Hands ((pooling Worker config).entry worker job)
      (poolWorkers config worker job) := by
  cases job with
  | push text =>
      simp only [poolWorkers, enQueue_form, named, ↓reduceIte, Program.issue_bind,
        Program.finish_bind, Program.pure_def]
      exact ⟨rfl, fun _ => .inr rfl⟩
  | drain =>
      simp only [poolWorkers, deQueueAll_form, delete_form, named, ↓reduceIte,
        Program.issue_bind, Program.finish_bind]
      refine ⟨rfl, fun answer => ?_⟩
      change (pooling Worker config).Follows Hands (nextPhase answer .reading) _
      simp only [nextPhase]
      cases itemsOf answer with
      | none => exact .inl rfl
      | some items =>
          refine ⟨rfl, fun reply => ?_⟩
          change Hands (nextPhase reply (.read items)) (anyReply reply, [] ++ items)
          simp only [nextPhase, List.nil_append]
          cases anyReply reply with
          | true => exact rfl
          | false => exact .inl rfl

theorem phaseCommand_cases (phase : Phase) (command : Effect)
    (allowed : phaseCommand config phase = some command) :
    (∃ text, phase = .pushing text ∧
      command = .redis config.cacheService (.rpush config.txPoolKey [text])) ∨
    (phase = .reading ∧
      command = .redis config.cacheService (.lrange config.txPoolKey 0 (-1))) ∨
    ∃ items, phase = .read items ∧
      command = .redis config.cacheService (.del config.txPoolKey) := by
  cases phase with
  | pushing text => exact .inl ⟨text, rfl, (Option.some.inj allowed).symm⟩
  | reading => exact .inr (.inl ⟨rfl, (Option.some.inj allowed).symm⟩)
  | read items => exact .inr (.inr ⟨items, rfl, (Option.some.inj allowed).symm⟩)
  | deleted items => cases allowed
  | ended => cases allowed

end Discipline

/-! The account of the pool. -/

def Drains : Phase → Prop
  | .reading => True
  | .read _ => True
  | .deleted _ => True
  | _ => False

/-- Items deleted from the pool and not handed to the caller yet. -/
def inHand : Option Phase → List Bytes
  | some (.deleted items) => items
  | _ => []

theorem hands_nothing {Worker : Type} (worker : Worker) (job : PoolJob) (phase : Phase)
    (result : PoolResult) (kept : ∀ items, phase ≠ .deleted items) (hands : Hands phase result) :
    returnedBy (.returned worker job result : PoolEvent Worker) = [] ∧
      inHand (some phase) = [] := by
  have plain : result.1 = false ∨ result.2 = [] := by
    cases phase with
    | deleted items => exact absurd rfl (kept items)
    | pushing text => exact hands
    | reading => exact hands
    | read items => exact hands
    | ended => exact hands
  constructor
  · obtain ⟨ok, items⟩ := result
    rcases plain with failed | nothing
    · cases failed
      rfl
    · cases nothing
      cases ok <;> rfl
  · cases phase with
    | deleted items => exact absurd rfl (kept items)
    | pushing text => rfl
    | reading => rfl
    | read items => rfl
    | ended => rfl

section Account
variable {Worker : Type} (config : Config) (throws : Bytes → Bool) (builder : Worker)

/-- Only the builder drains, and no command is refused. -/
def Orderly (pool : Pool Worker PoolJob Effect Answer PoolResult Servers) :
    Choice Worker PoolJob → Prop
  | .start worker .drain => worker = builder
  | .start _ (.push _) => True
  | .advance worker => Answering (serve throws) succeeded pool (.advance worker)

instance [DecidableEq Worker]
    (pool : Pool Worker PoolJob Effect Answer PoolResult Servers) :
    ∀ choice, Decidable (Orderly throws builder pool choice)
  | .start worker .drain => inferInstanceAs (Decidable (worker = builder))
  | .start _ (.push _) => .isTrue trivial
  | .advance worker => inferInstanceAs (Decidable (Answering _ _ pool (.advance worker)))

structure Accounted (start shared : Servers) (phases : Worker → Option Phase)
    (history : List (PoolEvent Worker)) : Prop where
  sole : ∀ worker phase, phases worker = some phase → Drains phase → worker = builder
  window : ∀ items, phases builder = some (.read items) →
    ∃ later, poolOf config (shared config.cacheService) = items ++ later ∧
      later.length = (crossings history).since
  account : ∃ lost : List Bytes, lost.length = (crossings history).crossed ∧
    ((poolOf config (start config.cacheService) ++ enqueued history : List Bytes) :
        Multiset Bytes) =
      (poolOf config (shared config.cacheService) : Multiset Bytes) +
        (drained history : List Bytes) + (inHand (phases builder) : List Bytes) +
        (lost : List Bytes)

variable [DecidableEq Worker]

theorem sole_update (phases : Worker → Option Phase) (worker : Worker) (phase : Option Phase)
    (sole : ∀ other found, phases other = some found → Drains found → other = builder)
    (mine : ∀ found, phase = some found → Drains found → worker = builder) :
    ∀ other found, Function.update phases worker phase other = some found →
      Drains found → other = builder := by
  intro other found lookup drains
  rcases update_cases phases worker other phase found lookup with ⟨rfl, here⟩ | ⟨-, lookup⟩
  · exact mine found here drains
  · exact sole other found lookup drains

theorem inHand_update (phases : Worker → Option Phase) (worker : Worker) (phase : Option Phase)
    (before : inHand (phases worker) = []) (after : inHand phase = []) :
    inHand (Function.update phases worker phase builder) = inHand (phases builder) := by
  by_cases same : builder = worker
  · subst worker
    rw [Function.update_self, before, after]
  · rw [Function.update_of_ne same]

theorem pushing_accounted (start shared : Servers) (phases : Worker → Option Phase)
    (history : List (PoolEvent Worker)) (worker : Worker) (job : PoolJob)
    (done : List (Effect × Answer)) (text : Bytes)
    (found : phases worker = some (.pushing text))
    (accepted : (exec (.rpush config.txPoolKey [text]) (shared config.cacheService)).1 ≠ .error)
    (answer : Answer) (next : Servers)
    (pushed : next config.cacheService =
      afterPush (shared config.cacheService) config.txPoolKey [text])
    (before : Accounted config builder start shared phases history) :
    Accounted config builder start next (Function.update phases worker (some .ended))
      (history ++ [.executed worker job done
        (.redis config.cacheService (.rpush config.txPoolKey [text])) answer]) := by
  have pool : poolOf config (next config.cacheService) =
      poolOf config (shared config.cacheService) ++ [text] := by
    rw [pushed]
    simp [poolOf, afterPush_accepted _ _ _ accepted, itemsIn]
  have hand := inHand_update builder phases worker (some .ended) (by rw [found]; rfl) rfl
  constructor
  · apply sole_update builder phases worker (some .ended) before.sole
    rintro phase ⟨⟩ ⟨⟩
  · intro items reading
    rcases update_cases phases worker builder _ _ reading with ⟨-, ⟨⟩⟩ | ⟨-, reading⟩
    obtain ⟨later, whole, count⟩ := before.window items reading
    exact ⟨later ++ [text], by rw [pool, whole, List.append_assoc],
      by simp [crossings_append, observe, count]⟩
  · obtain ⟨lost, count, sum⟩ := before.account
    refine ⟨lost, by simp [crossings_append, observe, count], ?_⟩
    rw [hand, pool, enqueued_append, drained_append, ← List.append_assoc]
    simp only [pushedBy, returnedBy, List.append_nil, ← Multiset.coe_add] at sum ⊢
    rw [sum]
    abel

/-- The builder has read the pool: from here on, appends are counted. -/
theorem reading_accounted (start shared : Servers) (phases : Worker → Option Phase)
    (history : List (PoolEvent Worker)) (worker : Worker) (job : PoolJob)
    (done : List (Effect × Answer)) (found : phases worker = some .reading) (answer : Answer)
    (before : Accounted config builder start shared phases history) :
    Accounted config builder start shared
      (Function.update phases worker
        (some (.read (poolOf config (shared config.cacheService)))))
      (history ++ [.executed worker job done
        (.redis config.cacheService (.lrange config.txPoolKey 0 (-1))) answer]) := by
  have mine : worker = builder := before.sole worker _ found trivial
  have hand := inHand_update builder phases worker
    (some (.read (poolOf config (shared config.cacheService)))) (by rw [found]; rfl) rfl
  refine ⟨sole_update builder _ worker _ before.sole fun _ _ _ => mine, ?_, ?_⟩
  · intro items reading
    rw [← mine, Function.update_self] at reading
    cases reading
    exact ⟨[], by simp, by simp [crossings_append, observe]⟩
  · obtain ⟨lost, count, sum⟩ := before.account
    refine ⟨lost, by simp [crossings_append, observe, count], ?_⟩
    rw [hand, enqueued_append, drained_append]
    simpa [pushedBy, returnedBy] using sum

/-- The delete takes what was read, and loses what was appended since. -/
theorem deleting_accounted (start shared : Servers) (phases : Worker → Option Phase)
    (history : List (PoolEvent Worker)) (worker : Worker) (job : PoolJob)
    (done : List (Effect × Answer)) (items : List Bytes)
    (found : phases worker = some (.read items)) (answer : Answer) (next : Servers)
    (empty : poolOf config (next config.cacheService) = [])
    (before : Accounted config builder start shared phases history) :
    Accounted config builder start next (Function.update phases worker (some (.deleted items)))
      (history ++ [.executed worker job done
        (.redis config.cacheService (.del config.txPoolKey)) answer]) := by
  have mine : worker = builder := before.sole worker _ found trivial
  subst worker
  obtain ⟨later, whole, count⟩ := before.window items found
  obtain ⟨lost, lostCount, sum⟩ := before.account
  refine ⟨sole_update builder _ builder _ before.sole fun _ _ _ => rfl, ?_, ?_⟩
  · intro other reading
    rw [Function.update_self] at reading
    cases reading
  · refine ⟨lost ++ later, ?_, ?_⟩
    · simp [crossings_append, observe, lostCount, count]
    · rw [empty, enqueued_append, drained_append]
      simp only [pushedBy, returnedBy, List.append_nil, Function.update_self, inHand]
      rw [sum, whole, found]
      simp only [inHand, ← Multiset.coe_add, Multiset.coe_nil]
      abel

/-- A call that returns hands over what it held. -/
theorem returned_accounted (start shared : Servers) (phases : Worker → Option Phase)
    (history : List (PoolEvent Worker)) (worker : Worker) (job : PoolJob) (phase : Phase)
    (result : PoolResult) (found : phases worker = some phase) (hands : Hands phase result)
    (before : Accounted config builder start shared phases history) :
    Accounted config builder start shared (Function.update phases worker none)
      (history ++ [.returned worker job result]) := by
  have moved : (drained (history ++ [.returned worker job result]) : Multiset Bytes) +
      (inHand (Function.update phases worker none builder) : List Bytes) =
      (drained history : Multiset Bytes) + (inHand (phases builder) : List Bytes) := by
    rw [drained_append]
    -- Only a completed drain has anything in hand.
    by_cases deleted : ∃ items, phase = .deleted items
    · obtain ⟨items, rfl⟩ := deleted
      have mine := before.sole worker _ found trivial
      subst worker
      cases hands
      rw [Function.update_self, found]
      simp [returnedBy, inHand]
    · obtain ⟨nothing, empty⟩ :=
        hands_nothing worker job phase result (fun items same => deleted ⟨items, same⟩) hands
      rw [inHand_update builder phases worker none (by rw [found]; exact empty) rfl, nothing,
        List.append_nil]
  constructor
  · exact sole_update builder phases worker none before.sole fun _ here _ => by cases here
  · intro items reading
    rcases update_cases phases worker builder _ _ reading with ⟨-, ⟨⟩⟩ | ⟨-, reading⟩
    simpa [crossings_append, observe] using before.window items reading
  · obtain ⟨lost, count, sum⟩ := before.account
    refine ⟨lost, by simp [crossings_append, observe, count], ?_⟩
    rw [enqueued_append]
    simp only [pushedBy, List.append_nil]
    rw [sum, add_assoc _ (drained history : Multiset Bytes), ← moved, ← add_assoc]

theorem accounted_keeps (start : Servers) :
    (pooling Worker config).Keeps (serve throws) Hands (Orderly throws builder)
      (Accounted config builder start) where
  begins pool worker job absent orderly before := by
    have hand := inHand_update builder ((pooling Worker config).phases pool) worker
      (some ((pooling Worker config).entry worker job)) (by rw [absent]; rfl)
      (by cases job <;> rfl)
    constructor
    · apply sole_update builder _ worker _ before.sole
      rintro phase ⟨⟩ drains
      cases job with
      | push text => exact drains.elim
      | drain => exact orderly
    · intro items reading
      rcases update_cases _ worker builder _ _ reading with ⟨-, here⟩ | ⟨-, reading⟩
      · cases job <;> cases here
      · exact before.window items reading
    · rw [hand]
      exact before.account
  issues pool worker call command next running rest allowed orderly before := by
    have found := (pooling Worker config).phases_running pool worker call running
    have accepted := orderly command (nextCommand_eq pool worker call command next running rest)
    have cases := phaseCommand_cases config _ command allowed
    rcases cases with ⟨text, phase, rfl⟩ | ⟨phase, rfl⟩ | ⟨items, phase, rfl⟩
    · rw [phase] at found ⊢
      exact pushing_accounted config builder start pool.shared _ pool.history worker call.job
        call.done text found ((succeeded_reply _).mp accepted) _ _ (by simp [serve, afterPush])
        before
    · rw [phase] at found ⊢
      have answered := lrange_all (pool.shared config.cacheService) config.txPoolKey
        ((succeeded_reply _).mp accepted)
      simp only [serve, answered, Function.update_eq_self]
      exact reading_accounted config builder start pool.shared _ pool.history worker call.job
        call.done found _ before
    · rw [phase] at found ⊢
      exact deleting_accounted config builder start pool.shared _ pool.history worker call.job
        call.done items found _ _ (by simp [serve, exec, poolOf, itemsIn]) before
  returns shared phases history worker job phase result found hands before :=
    returned_accounted config builder start shared phases history worker job phase result found
      hands before

end Account

/-- Every transaction that was ever appended is in the pool or was returned
by one completed drain. -/
def Intact {Worker : Type} (config : Config) (start : Servers)
    (pool : Pool Worker PoolJob Effect Answer PoolResult Servers) : Prop :=
  ((poolOf config (start config.cacheService) ++ enqueued pool.history : List Bytes) :
      Multiset Bytes) =
    (poolOf config (pool.shared config.cacheService) : Multiset Bytes) +
      (drained pool.history : List Bytes)

/-- In every interleaving nothing is lost exactly when no append fell between
a read of the builder and the delete of the same drain. -/
theorem pool_intact_iff {Worker : Type} [DecidableEq Worker] (config : Config)
    (throws : Bytes → Bool) (named : config.txPoolKey ≠ []) (builder : Worker) (start : Servers)
    (schedule : List (Choice Worker PoolJob))
    (orderly : Along (serve throws) (poolWorkers config) (Orderly throws builder) (idle start)
      schedule) :
    Intact config start (runPool (serve throws) (poolWorkers config) (idle start) schedule) ↔
      (crossings (runPool (serve throws) (poolWorkers config) (idle start)
        schedule).history).crossed = 0 := by
  obtain ⟨tracked, accounted⟩ := Discipline.run_keeps
    (accounted_keeps config throws builder start)
    (fun _ worker job _ => poolWorkers_follows config named worker job) (idle start) schedule
    orderly (Discipline.idle_tracked start)
    { sole := by simp [Discipline.idle_phases]
      window := by simp [Discipline.idle_phases]
      account := ⟨[], by simp [crossings],
        by simp [Discipline.idle_phases, enqueued, drained, inHand]⟩ }
  obtain ⟨lost, count, sum⟩ := accounted.account
  -- A drain in progress waits before a command, so it has not deleted yet.
  have empty : inHand ((pooling Worker config).phases (runPool (serve throws)
      (poolWorkers config) (idle start) schedule) builder) = [] := by
    cases found : (pooling Worker config).phases (runPool (serve throws)
        (poolWorkers config) (idle start) schedule) builder with
    | none => rfl
    | some phase =>
        obtain ⟨command, allowed⟩ := Discipline.tracked_allowed _ _ _ tracked builder phase found
        rcases phaseCommand_cases config phase command allowed with
          ⟨text, rfl, -⟩ | ⟨rfl, -⟩ | ⟨items, rfl, -⟩ <;> rfl
  rw [empty] at sum
  rw [Intact, sum, ← count, List.length_eq_zero_iff]
  simp only [Multiset.coe_nil, add_zero, add_eq_left]
  exact Multiset.coe_eq_zero lost

def pushOf (text : String) : PoolJob := .push (ascii text)

theorem pool_intact_iff_quiet :
    Intact rootServerConf (fun _ => ∅) (runPool (serve fun _ => false)
      (poolWorkers rootServerConf) (idle fun _ => ∅)
      [.start false (pushOf "t1"), .advance false, .start true .drain, .advance true,
        .advance true, .start false (pushOf "t2"), .advance false]) ↔
    (crossings (runPool (serve fun _ => false)
      (poolWorkers rootServerConf) (idle fun _ => ∅)
      [.start false (pushOf "t1"), .advance false, .start true .drain, .advance true,
        .advance true, .start false (pushOf "t2"), .advance false]).history).crossed = 0 :=
  pool_intact_iff rootServerConf (fun _ => false) (by decide +kernel) true (fun _ => ∅) _
    (by decide +kernel)

/-- The second append of worker `false` falls between the read and the delete
of the builder `true`. -/
def crossingAppend : List (Choice Bool PoolJob) :=
  [.start false (pushOf "t1"), .advance false, .start true .drain, .advance true,
    .start false (pushOf "t2"), .advance false, .advance true]

theorem crossing_append_lost :
    Along (serve fun _ => false) (poolWorkers rootServerConf) (Orderly (fun _ => false) true)
      (idle fun _ => ∅) crossingAppend ∧
    ¬ Intact rootServerConf (fun _ => ∅) (runPool (serve fun _ => false)
      (poolWorkers rootServerConf) (idle fun _ => ∅) crossingAppend) := by
  constructor
  · decide +kernel
  · simp only [Intact, Multiset.coe_add]
    decide +kernel

end FPayNode.TransactionPool
