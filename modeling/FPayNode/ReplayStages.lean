import FPayNode.NodeStartup

/-!
The commands of `FPService::init` seen from the replay of the balances: a call
is before it, takes the locker and walks along the chain, or has it behind.
-/

namespace FPayNode.ReplayStages

open CommandProgram WorkerPool DecimalText RedisServer RedisCache Messages NodeService
open BlockCreation NodeStartup

section Stages
variable (config : Config) (cereal : Cereal)

/-- The increments of a block that are sent: an account without a name is not. -/
def blockIncrements (block : Block) : List (Bytes × Int64) :=
  (balanceMap block._txList).filter fun pair => pair.1 ≠ []

/-- Where a call stands with the replay: what it has left of a block, the block
it reads next and the rounds it has left. -/
inductive ReplayStage where
  | before (boot : Boot)
  | replaying (boot : Boot) (reads : Nat) (pending : List (Bytes × Int64)) (blockId : Bytes)
  | after

/-- The replay is over when nothing is left and the round that sees it is. -/
def replayNext (boot : Boot) (reads : Nat) (pending : List (Bytes × Int64)) (blockId : Bytes) :
    ReplayStage :=
  if pending = [] ∧ blockId = [] ∧ 0 < reads then .after
  else .replaying boot reads pending blockId

/-- The commands of `init` that have nothing to do with the replay. -/
def Aside (command : Effect) : Prop :=
  (∃ service key, command = .redis service (.get key)) ∨
    (∃ id, command = .redis config.cacheService (.set config.BCLock id 0 .nx)) ∨
    command = .redis config.cacheService (.del config.BCLock) ∨
    ∃ ipport uri body, command = .sendTo ipport uri body

def ReplayAllowed : ReplayStage → Effect → Prop
  | .before _, command => Aside config command ∨
      ∃ id, command = .redis config.cacheService (.set initBalanceLocker id 0 .nx)
  | .replaying _ reads [] blockId, command =>
      0 < reads ∧ blockId ≠ [] ∧ command = .redis config.dbService (.get blockId)
  | .replaying _ _ (pair :: _) _, command =>
      command = .redis config.cacheService (.incrBy pair.1 pair.2)
  | .after, command => Aside config command

def nextReplayStage : ReplayStage → Effect → Answer → ReplayStage
  | .before boot, .redis _ (.set key _ _ _), answer =>
      if key = initBalanceLocker then
        if statusAnswer answer then replayNext boot boot.reads [] config.initBlockId else .after
      else .before boot
  | .before boot, _, _ => .before boot
  | .replaying boot reads [] _, _, answer =>
      match cereal.block.fromString (textOf [] answer).2 (Block.fresh (boot.memory (reads - 1))) with
      | (true, block) => replayNext boot (reads - 1) (blockIncrements block) block._next
      | (false, _) => .after
  | .replaying boot reads (_ :: rest) blockId, _, _ => replayNext boot reads rest blockId
  | .after, _, _ => .after

def replaying {Worker : Type} : Discipline Worker Boot Effect Answer ReplayStage where
  entry _ boot := .before boot
  allowed := ReplayAllowed config
  next := nextReplayStage config cereal

theorem replayNext_ne_before (boot other : Boot) (reads : Nat) (pending : List (Bytes × Int64))
    (blockId : Bytes) : replayNext boot reads pending blockId ≠ .before other := by
  rw [replayNext]
  split <;> simp

/-- No command leads back. -/
theorem next_before (stage : ReplayStage) (command : Effect) (answer : Answer) (boot : Boot)
    (back : nextReplayStage config cereal stage command answer = .before boot) :
    stage = .before boot := by
  revert back
  fun_cases nextReplayStage config cereal stage command answer <;>
    simp [replayNext_ne_before]

/-- How a call is left: true only with the replay over, and during the replay
only when the rounds are used up. -/
def Ends (stage : ReplayStage) (result : Started) : Prop :=
  match stage with
  | .before _ => result ≠ some (.ok true)
  | .replaying _ reads pending _ => reads = 0 ∧ pending = []
  | .after => True

variable {Worker : Type}

/-! `init` follows the stages. -/

/-- A command that leaves a call in its stage. -/
def Steady (stage : ReplayStage) (command : Effect) : Prop :=
  ReplayAllowed config stage command ∧
    ∀ answer, nextReplayStage config cereal stage command answer = stage

theorem before_steady (apart : config.BCLock ≠ initBalanceLocker) (boot : Boot) (command : Effect)
    (aside : Aside config command) : Steady config cereal (.before boot) command := by
  refine ⟨.inl aside, fun answer => ?_⟩
  rcases aside with ⟨service, key, rfl⟩ | ⟨id, rfl⟩ | rfl | ⟨ipport, uri, body, rfl⟩
  · rfl
  · exact if_neg apart
  · rfl
  · rfl

theorem releaseLock_issues (holds : Effect → Prop) (self : FPService) (lock : Bytes)
    (read : holds (.redis config.cacheService (.get lock)))
    (deleted : holds (.redis config.cacheService (.del lock))) :
    (releaseLock config self lock).Issues holds := by
  apply Program.issues_bind
  · exact get_issues holds _ _ _ read
  · rintro ⟨_, id⟩
    dsimp only
    split
    · exact Program.issues_bind holds _ _ (delete_issues holds _ _ deleted) fun _ => trivial
    · exact trivial

theorem acquireLock_issues (holds : Effect → Prop) (self : FPService) (lock : Bytes)
    (one : holds (.redis config.cacheService (.set lock self._id 0 .nx))) (spins : Nat) :
    (acquireLock config self lock spins).Issues holds := by
  induction spins with
  | zero => exact trivial
  | succ spins ih =>
      apply Program.issues_bind
      · exact setNX_issues holds _ _ _ one
      · intro acquired
        split
        · exact trivial
        · exact ih

theorem syncBlockChain_issues (holds : Effect → Prop) (memory : Uninitialized)
    (one : holds (.redis config.dbService (.get config.lastBlockKey))) :
    (syncBlockChain config cereal memory).Issues holds := by
  apply Program.issues_bind
  · apply Program.issues_bind
    · exact get_issues holds _ _ _ one
    · exact fun _ => trivial
  · exact fun _ => trivial

theorem initLogin_follows (self : FPService) :
    (replaying config cereal : Discipline Worker _ _ _ _).Follows Ends .after
      (initLogin config cereal self) := by
  apply Discipline.follows_steady
  · have released := releaseLock_issues config (Steady config cereal .after) self config.BCLock
      ⟨.inl ⟨_, _, rfl⟩, fun _ => rfl⟩ ⟨.inr (.inr (.inl rfl)), fun _ => rfl⟩
    simp only [initLogin]
    split
    · apply Program.issues_bind
      · exact setNX_issues _ _ _ _ ⟨.inr (.inl ⟨_, rfl⟩), fun _ => rfl⟩
      · intro locked
        split
        · apply Program.issues_bind
          · simp only [login]
            split
            · exact trivial
            · refine ⟨⟨.inr (.inr (.inr ⟨_, _, _, rfl⟩)), fun _ => rfl⟩, fun answer => ?_⟩
              cases answer <;> exact trivial
          · intro sent
            cases sent with
            | error thrown => exact trivial
            | ok loginSuccess => exact Program.issues_bind _ _ _ released fun _ => trivial
        · exact trivial
    · exact trivial
  · exact fun _ => trivial

theorem applyAll_follows (boot : Boot) (reads : Nat) (blockId : Bytes)
    (pairs : List (Bytes × Int64)) :
    (replaying config cereal : Discipline Worker _ _ _ _).Follows
      (fun stage _ => stage = replayNext boot reads [] blockId)
      (replayNext boot reads (pairs.filter fun pair => pair.1 ≠ []) blockId)
      (applyAll config pairs) := by
  induction pairs with
  | nil => exact rfl
  | cons pair rest ih =>
      rw [applyAll, incrBy_form]
      by_cases unnamed : pair.1 = []
      · rw [if_pos unnamed, List.filter_cons_of_neg (by simpa using unnamed)]
        exact ih
      · have here : replayNext boot reads (pair :: rest.filter fun pair => pair.1 ≠ []) blockId =
            .replaying boot reads (pair :: rest.filter fun pair => pair.1 ≠ []) blockId :=
          if_neg fun ended => List.cons_ne_nil _ _ ended.1
        rw [if_neg unnamed, List.filter_cons_of_pos (by simpa using unnamed), here]
        exact ⟨rfl, fun _ => ih⟩

/-- With rounds left the walk ends behind the replay, whether it came to the end
of the chain or to a block that did not load. -/
def WalkEnds (boot : Boot) (stage : ReplayStage) : Option Bool → Prop
  | none => ∃ blockId, stage = .replaying boot 0 [] blockId
  | some _ => stage = .after

theorem initBalance_follows (boot : Boot) (reads : Nat) (blockId : Bytes) :
    (replaying config cereal : Discipline Worker _ _ _ _).Follows (WalkEnds boot)
      (replayNext boot reads [] blockId)
      (initBalance config cereal boot.memory reads blockId) := by
  induction reads generalizing blockId with
  | zero => exact ⟨blockId, if_neg fun ended => Nat.lt_irrefl 0 ended.2.2⟩
  | succ reads ih =>
      rw [initBalance]
      by_cases last : blockId = []
      · subst last
        exact if_pos ⟨rfl, rfl, Nat.succ_pos reads⟩
      · have here : replayNext boot (reads + 1) [] blockId =
            .replaying boot (reads + 1) [] blockId := if_neg fun ended => last ended.2.1
        rw [here, if_neg (by simpa using last), getBlock_form, if_neg last]
        simp only [Program.issue_bind, Program.finish_bind]
        refine ⟨⟨Nat.succ_pos reads, last, rfl⟩, fun answer => ?_⟩
        rcases loaded : cereal.block.fromString (textOf [] answer).2
          (Block.fresh (boot.memory reads)) with ⟨found, block⟩
        have next : (replaying config cereal : Discipline Worker _ _ _ _).next
            (.replaying boot (reads + 1) [] blockId)
            (.redis config.dbService (.get blockId)) answer =
            if found then replayNext boot reads (blockIncrements block) block._next
            else .after := by
          simp only [replaying, nextReplayStage, Nat.add_sub_cancel, loaded]
          cases found <;> rfl
        rw [next]
        simp only [loaded]
        cases found with
        | false => exact rfl
        | true =>
            apply Discipline.follows_bind
            · exact applyAll_follows config cereal boot reads block._next _
            · intro stage _ ended
              rw [ended]
              exact ih block._next

theorem initBalances_follows (named : initBalanceLocker ≠ []) (self : FPService) (boot : Boot) :
    (replaying config cereal : Discipline Worker _ _ _ _).Follows Ends (.before boot)
      (initBalances config cereal self boot) := by
  rw [initBalances, tryLock, setNX_form, if_neg named]
  simp only [Program.issue_bind, Program.finish_bind]
  refine ⟨.inr ⟨_, rfl⟩, fun answer => ?_⟩
  have next : (replaying config cereal : Discipline Worker _ _ _ _).next (.before boot)
      (.redis config.cacheService (.set initBalanceLocker self._id 0 .nx)) answer =
      if statusAnswer answer then replayNext boot boot.reads [] config.initBlockId
      else .after := by
    simp only [replaying, nextReplayStage, ↓reduceIte]
  rw [next]
  dsimp only
  cases statusAnswer answer with
  | false => exact initLogin_follows config cereal self
  | true =>
      apply Discipline.follows_bind _ _ _ _ _ _
        (initBalance_follows config cereal boot boot.reads config.initBlockId)
      intro stage result ended
      cases result with
      | none =>
          obtain ⟨blockId, rfl⟩ := ended
          exact ⟨rfl, rfl⟩
      | some _ =>
          rw [ended]
          exact initLogin_follows config cereal self

theorem init_follows (apart : config.BCLock ≠ initBalanceLocker) (self : FPService)
    (boot : Boot) :
    (replaying config cereal : Discipline Worker _ _ _ _).Follows Ends (.before boot)
      (init config cereal self boot) := by
  -- What leads to the locker leaves the call where it is.
  have steady : ∀ {Result : Type} (program : Calls Result) (rest : Result → Calls Started),
      program.Issues (Steady config cereal (.before boot)) →
      (∀ result, (replaying config cereal : Discipline Worker _ _ _ _).Follows Ends
        (.before boot) (rest result)) →
      (replaying config cereal : Discipline Worker _ _ _ _).Follows Ends (.before boot)
        (program >>= rest) := by
    intro Result program rest issues later
    apply Discipline.follows_bind _ (fun stage _ => stage = .before boot)
    · exact Discipline.follows_steady _ _ _ _ issues fun _ => rfl
    · rintro stage result rfl
      exact later result
  have balances : ∀ self : FPService, (replaying config cereal :
      Discipline Worker _ _ _ _).Follows Ends (.before boot)
      (initBalances config cereal self boot) :=
    fun self => initBalances_follows config cereal (by decide) self boot
  have released := fun self : FPService =>
    releaseLock_issues config (Steady config cereal (.before boot)) self config.BCLock
      (before_steady config cereal apart boot _ (.inl ⟨_, _, rfl⟩))
      (before_steady config cereal apart boot _ (.inr (.inr (.inl rfl))))
  have failed : ∀ result : Started, result ≠ some (.ok true) →
      (replaying config cereal : Discipline Worker _ _ _ _).Follows Ends (.before boot)
        (pure result : Calls Started) := fun _ other => other
  simp only [init]
  split
  · exact failed _ (by simp)
  · split
    · exact failed _ (by simp)
    · apply steady _ _ (released _)
      intro _
      simp only [initSync]
      split
      · apply steady _ _ (acquireLock_issues config _ _ _
          (before_steady config cereal apart boot _ (.inr (.inl ⟨_, rfl⟩))) _)
        intro acquired
        split
        · apply steady _ _ (syncBlockChain_issues config cereal _ _
            (before_steady config cereal apart boot _ (.inl ⟨_, _, rfl⟩)))
          intro blockSync
          apply steady _ _ (released _)
          intro _
          split
          · exact failed _ (by simp)
          · exact balances _
        · exact failed _ (by simp)
      · exact balances _

theorem starters_follows (apart : config.BCLock ≠ initBalanceLocker) (self : Worker → FPService)
    (worker : Worker) (boot : Boot) :
    (replaying config cereal : Discipline Worker _ _ _ _).Follows Ends
      ((replaying config cereal).entry worker boot) (starters config cereal self worker boot) :=
  init_follows config cereal apart (self worker) boot

end Stages
end FPayNode.ReplayStages
