import FPayNode.BlockCreation
import FPayNode.RootTransaction
import FPayNode.WorkerPool

/-!
The stages of a call of `generateNewBlock`, from the attempt to take the
builder lock to its release, and of an append to the pool. Every command a
call can issue is allowed in the stage it is in, whatever was answered before.
-/

namespace FPayNode.BuilderStages

open CommandProgram WorkerPool DecimalText RedisServer RedisCache Messages NodeService
open RootTransaction BlockCreation

inductive BuilderJob where
  | build (moment : Moment)
  | push (tx : Transaction) (clean : tx.Clean)

abbrev BuilderResult := Except Thrown Unit

abbrev BuilderEvent (Worker : Type) := Event Worker BuilderJob Effect Answer BuilderResult

def builders {Worker : Type} (config : Config) (cereal : Cereal) (rand : UInt32 → Nat → Nat)
    (self : Worker → FPService) (worker : Worker) : BuilderJob → Calls BuilderResult
  | .build moment => generateNewBlock config cereal (self worker) rand moment
  | .push tx _ => do
      let _ ← enQueue config.cacheService config.txPoolKey (cereal.transaction.toString tx)
      pure (.ok ())

inductive Stage where
  | pushing (tx : Transaction) (clean : tx.Clean)
  | outside
  | entered
  | read (items : List Bytes)
  | drained (items : List Bytes)
  | closing
  | ended

section Broadcast
variable {Worker Job Phase : Type} (discipline : Discipline Worker Job Effect Answer Phase)
variable (config : Config) (cereal : Cereal) (post : Phase → Except Thrown Bool → Prop)
variable (phase : Phase) (block : Block)

theorem sendAll_disciplined (children : List Bytes)
    (allowed : ∀ hostport, discipline.allowed phase
      (.sendTo hostport Block.uri (cereal.block.toString block)))
    (threw : ∀ hostport, post (discipline.next phase
      (.sendTo hostport Block.uri (cereal.block.toString block)) .threw) (.error .sendTo))
    (stays : ∀ hostport answer, answer ≠ .threw → discipline.next phase
      (.sendTo hostport Block.uri (cereal.block.toString block)) answer = phase)
    (ends : ∀ sent, post phase (.ok sent)) :
    discipline.Follows post phase (sendAll cereal block children) := by
  induction children with
  | nil => exact ends true
  | cons nodeStr rest ih =>
      simp only [sendAll]
      split
      · exact ih
      · refine ⟨allowed _, fun answer => ?_⟩
        by_cases left : answer = .threw
        · subst left
          exact threw _
        · rw [stays _ answer left]
          cases answer with
          | threw => exact absurd rfl left
          | reply reply => exact ih
          | lost => exact ih
          | sent => exact ih

/-- A broadcast asks for the children and sends to them; it leaves the phase it is
in only by an exception. -/
theorem broadcast_disciplined
    (asks : discipline.allowed phase (.redis config.cacheService (.smembers config.childNodesKey)))
    (asked : ∀ answer, discipline.next phase
      (.redis config.cacheService (.smembers config.childNodesKey)) answer = phase)
    (allowed : ∀ hostport, discipline.allowed phase
      (.sendTo hostport Block.uri (cereal.block.toString block)))
    (threw : ∀ hostport, post (discipline.next phase
      (.sendTo hostport Block.uri (cereal.block.toString block)) .threw) (.error .sendTo))
    (stays : ∀ hostport answer, answer ≠ .threw → discipline.next phase
      (.sendTo hostport Block.uri (cereal.block.toString block)) answer = phase)
    (ends : ∀ sent, post phase (.ok sent)) :
    discipline.Follows post phase (broadcast config cereal block) := by
  simp only [broadcast, getMembers_form, Program.issue_bind]
  refine ⟨asks, fun answer => ?_⟩
  rw [asked answer]
  dsimp only
  cases itemsOf answer with
  | none => exact ends false
  | some items =>
      simp only [Program.finish_bind]
      split
      · exact ends false
      · exact sendAll_disciplined discipline cereal post phase block _ allowed threw stays ends

end Broadcast

section Discipline
variable (Worker : Type) (config : Config) (cereal : Cereal)

def Allowed : Stage → Effect → Prop
  | .pushing tx _, command => command =
      .redis config.cacheService (.rpush config.txPoolKey [cereal.transaction.toString tx])
  | .outside, command => ∃ id, command = .redis config.cacheService (.set builderLock id 0 .nx)
  | .entered, command => command = .redis config.dbService (.get config.lastBlockKey) ∨
      command = .redis config.cacheService (.lrange config.txPoolKey 0 (-1))
  | .read _, command => command = .redis config.cacheService (.del config.txPoolKey)
  | .drained items, command =>
      (∃ block memory, block.Clean ∧ block._txList = loadAll cereal memory items ∧
        command = .redis config.dbService
          (.set block._id (cereal.block.toString block) (-1) .always)) ∨
      command = .redis config.cacheService (.get builderLock)
  | .closing, command =>
      (∃ key text, command = .redis config.dbService (.set key text (-1) .always)) ∨
      command = .redis config.cacheService (.smembers config.childNodesKey) ∨
      (∃ ipport body, command = .sendTo ipport Block.uri body) ∨
      command = .redis config.cacheService (.get builderLock) ∨
      command = .redis config.cacheService (.del builderLock)
  | .ended, _ => False

def nextStage : Stage → Effect → Answer → Stage
  | .outside, _, answer => if statusAnswer answer then .entered else .ended
  | .entered, .redis _ (.lrange _ _ _), answer =>
      match itemsOf answer with
      | none => .closing
      | some items => .read items
  -- Reading the last block.
  | .entered, _, _ => .entered
  | .read items, _, answer => if anyReply answer then .drained items else .closing
  | .drained _, _, _ => .closing
  | .closing, .redis _ (.del _), _ => .ended
  | .closing, _, _ => .closing
  | .pushing _ _, _, _ => .ended
  | .ended, _, _ => .ended

def building : Discipline Worker BuilderJob Effect Answer Stage where
  entry _ := fun
    | .build _ => .outside
    | .push tx clean => .pushing tx clean
  allowed := Allowed config cereal
  next := nextStage

def Anyway {Result : Type} (_ : Stage) (_ : Result) : Prop := True

variable {Worker}

theorem releaseLock_follows (self : FPService) (stage : Stage)
    (late : stage = .closing ∨ ∃ items, stage = .drained items) :
    (building Worker config cereal).Follows Anyway stage
      (releaseLock config self builderLock) := by
  have named : builderLock ≠ [] := by decide
  simp only [releaseLock, get_form, delete_form, named, ↓reduceIte, Program.issue_bind,
    Program.finish_bind]
  have closing : ∀ answer, (building Worker config cereal).next stage
      (.redis config.cacheService (.get builderLock)) answer = .closing := by
    intro answer
    rcases late with rfl | ⟨items, rfl⟩ <;> rfl
  refine ⟨?_, fun answer => ?_⟩
  · rcases late with rfl | ⟨items, rfl⟩
    · exact .inr (.inr (.inr (.inl rfl)))
    · exact .inr rfl
  · rw [closing]
    dsimp only
    split
    · exact ⟨.inr (.inr (.inr (.inr rfl))), fun _ => trivial⟩
    · exact trivial

theorem broadcast_follows (block : Block) :
    (building Worker config cereal).Follows (fun stage _ => stage = .closing) .closing
      (broadcast config cereal block) := by
  apply broadcast_disciplined
  · exact .inr (.inl rfl)
  · exact fun answer => rfl
  · exact fun hostport => .inr (.inr (.inl ⟨_, _, rfl⟩))
  · exact fun hostport => rfl
  · exact fun hostport answer _ => rfl
  · exact fun sent => rfl

/-- A stored block closes the section; a block that is not created leaves it
closing or just drained. -/
def Created (stage : Stage) (result : Bool × Block) : Prop :=
  stage = .closing ∨ (result.1 = false ∧ ∃ items, stage = .drained items)

theorem storeLast_follows (lawful : cereal.Lawful) (block built : Block) :
    (building Worker config cereal).Follows Created .closing
      (storeBlock config cereal block >>= fun _ => .finish (true, built)) := by
  rw [storeBlock_form config cereal lawful]
  split
  · exact .inl rfl
  · exact ⟨.inl ⟨_, _, rfl⟩, fun _ => .inl rfl⟩

theorem afterDrain_follows (lawful : cereal.Lawful) (rand : UInt32 → Nat → Nat)
    (moment : Moment) (block lastBlock : Block) (clean : block.Clean)
    (lastClean : lastBlock.Clean) (fresh : block._txList = []) (items : List Bytes) :
    (building Worker config cereal).Follows Created (.drained items)
      (afterDrain config cereal rand moment block lastBlock (true, items)) := by
  by_cases empty : items = []
  · simp only [afterDrain, empty, ne_eq, not_true_eq_false, and_false, ↓reduceIte]
    exact .inr ⟨rfl, [], rfl⟩
  · simp only [afterDrain, empty, ne_eq, not_false_eq_true, and_self, ↓reduceIte]
    have store := storeBlock_form config cereal lawful
      (builtBlock cereal rand moment block lastBlock items)
    have named : (builtBlock cereal rand moment block lastBlock items)._id ≠ [] :=
      genBlockId_ne_nil rand moment.seconds
    rw [if_neg named] at store
    rw [store]
    refine ⟨.inl ⟨builtBlock cereal rand moment block lastBlock items,
      fun i => moment.memory (i + 2),
      builtBlock_clean cereal lawful rand moment block lastBlock clean lastClean items,
      ?_, rfl⟩, fun _ => ?_⟩
    · simp [builtBlock, fresh]
    · exact storeLast_follows config cereal lawful _ _

theorem createBlock_follows (lawful : cereal.Lawful) (named : config.txPoolKey ≠ [])
    (rand : UInt32 → Nat → Nat) (moment : Moment) (block : Block) (clean : block.Clean)
    (fresh : block._txList = []) :
    (building Worker config cereal).Follows Created .entered
      (createBlock config cereal rand moment block) := by
  rw [createBlock_eq]
  apply Discipline.follows_bind _ (fun stage found => stage = .entered ∧ found.2.Clean)
  · have loaded := fun text => lawful.block.loaded text (Block.fresh (moment.memory 1))
      (Block.fresh_clean _)
    rw [getBlock_form]
    split
    · exact ⟨rfl, loaded []⟩
    · exact ⟨.inl rfl, fun answer => ⟨rfl, loaded _⟩⟩
  · rintro stage found ⟨rfl, lastClean⟩
    simp only [deQueueAll_form, delete_form, named, ↓reduceIte, Program.issue_bind,
      Program.finish_bind]
    refine ⟨.inr rfl, fun answer => ?_⟩
    change (building Worker config cereal).Follows Created (match itemsOf answer with
      | none => .closing
      | some items => .read items) _
    dsimp only
    cases itemsOf answer with
    | none => exact .inl rfl
    | some items =>
        refine ⟨rfl, fun reply => ?_⟩
        change (building Worker config cereal).Follows Created
          (if anyReply reply then .drained items else .closing)
          (afterDrain config cereal rand moment block found.2 (anyReply reply, items))
        cases anyReply reply with
        | false => exact .inl rfl
        | true =>
            exact afterDrain_follows config cereal lawful rand moment block found.2 clean
              lastClean fresh items

theorem generateNewBlock_follows (lawful : cereal.Lawful) (named : config.txPoolKey ≠ [])
    (self : FPService) (rand : UInt32 → Nat → Nat) (moment : Moment) :
    (building Worker config cereal).Follows Anyway .outside
      (generateNewBlock config cereal self rand moment) := by
  have lock : builderLock ≠ [] := by decide
  simp only [generateNewBlock]
  split
  · exact trivial
  · simp only [tryLock, setNX_form, lock, ↓reduceIte, Program.issue_bind, Program.finish_bind]
    refine ⟨⟨_, rfl⟩, fun answer => ?_⟩
    change (building Worker config cereal).Follows Anyway
      (if statusAnswer answer then .entered else .ended) _
    dsimp only
    cases statusAnswer answer with
    | false => exact trivial
    | true =>
        apply Discipline.follows_bind _ Created
        · exact createBlock_follows config cereal lawful named rand moment _
            (Block.fresh_clean _) rfl
        · rintro stage ⟨created, block⟩ ended
          cases created with
          | false =>
              -- The lock is released from wherever `createBlock` stopped.
              have late : stage = .closing ∨ ∃ items, stage = .drained items := by
                rcases ended with closing | ⟨-, drained⟩
                · exact .inl closing
                · exact .inr drained
              apply Discipline.follows_bind _ Anyway
              · exact releaseLock_follows config cereal self stage late
              · exact fun _ _ _ => trivial
          | true =>
              have closing : stage = .closing := by
                rcases ended with closing | ⟨failed, -⟩
                · exact closing
                · cases failed
              subst closing
              apply Discipline.follows_bind _ (fun stage _ => stage = .closing)
              · exact broadcast_follows config cereal block
              · rintro stage sent rfl
                cases sent with
                | error thrown => exact trivial
                | ok _ =>
                    apply Discipline.follows_bind _ Anyway
                    · exact releaseLock_follows config cereal self .closing (.inl rfl)
                    · exact fun _ _ _ => trivial

theorem builders_follows (lawful : cereal.Lawful) (named : config.txPoolKey ≠ [])
    (self : Worker → FPService) (rand : UInt32 → Nat → Nat) (worker : Worker)
    (job : BuilderJob) :
    (building Worker config cereal).Follows Anyway
      ((building Worker config cereal).entry worker job)
      (builders config cereal rand self worker job) := by
  cases job with
  | build moment =>
      exact generateNewBlock_follows config cereal lawful named (self worker) rand moment
  | push tx clean =>
      simp only [builders, enQueue_form, named, ↓reduceIte, Program.issue_bind,
        Program.finish_bind]
      exact ⟨rfl, fun _ => trivial⟩

/-- Only an append is in the stage of an append. -/
theorem phaseOf_pushing (worker : Worker) (call : Running BuilderJob Effect Answer BuilderResult)
    (tx : Transaction) (clean : tx.Clean)
    (stage : (building Worker config cereal).phaseOf worker call = .pushing tx clean) :
    call.job = .push tx clean := by
  have leaves : ∀ stage command answer, nextStage stage command answer ≠ .pushing tx clean := by
    intro stage command answer same
    simp only [nextStage] at same
    split at same <;> first | cases same | (split at same <;> cases same)
  have fold : ∀ (done : List (Effect × Answer)) (start : Stage),
      done.foldl (fun stage sent => nextStage stage sent.1 sent.2) start = .pushing tx clean →
        done = [] := by
    intro done
    induction done with
    | nil => exact fun _ _ => rfl
    | cons sent done ih =>
        intro start same
        have rest := ih _ same
        subst rest
        exact absurd same (leaves start sent.1 sent.2)
  obtain ⟨job, done, rest⟩ := call
  have empty := fold done _ stage
  subst empty
  cases job with
  | build moment => cases stage
  | push other otherClean =>
      cases stage
      rfl

end Discipline

end FPayNode.BuilderStages
