import FPayNode.BuilderStages
import FPayNode.CerealJson

/-!
Root workers that build blocks at the same time, each under the builder lock,
while others append to the pool. The lock is taken by a conditional `SET` and
released by a read and a delete; the section in between drains the pool and
stores a block.
-/

namespace FPayNode.BlockBuilders

open CommandProgram WorkerPool DecimalText RedisServer RedisCache Messages NodeService
open RootTransaction BlockCreation BuilderStages

/-! What the history says. -/

section History
variable {Worker : Type} (config : Config) (cereal : Cereal)

/-- Whether a call holds the builder lock after what it has executed. -/
def lockStep (held : Bool) : Effect × Answer → Bool
  | (.redis service (.set key _ _ .nx), .reply .status) =>
      if service = config.cacheService ∧ key = builderLock then true else held
  | (.redis service (.del key), _) =>
      if service = config.cacheService ∧ key = builderLock then false else held
  | _ => held

def lockedBy (done : List (Effect × Answer)) : Bool := done.foldl (lockStep config) false

def lastCommand (done : List (Effect × Answer)) : Option Effect := done.getLast?.map Prod.fst

/-- The transactions of a block, when the event stored a new block: the write
right after the drain. -/
def createdBy : BuilderEvent Worker → List (List Transaction)
  | .executed _ _ before (.redis _ (.set _ text _ .always)) _ =>
      if lastCommand before = some (.redis config.cacheService (.del config.txPoolKey)) then
        [(cereal.block.fromString text (Block.fresh ⟨0, 0⟩)).2._txList]
      else []
  | _ => []

def created (history : List (BuilderEvent Worker)) : List (List Transaction) :=
  history.flatMap (createdBy config cereal)

def appendedBy : BuilderEvent Worker → List Transaction
  | .executed _ (.push tx _) _ (.redis _ (.rpush _ _)) _ => [tx]
  | _ => []

def appended (history : List (BuilderEvent Worker)) : List Transaction :=
  history.flatMap appendedBy

theorem lockedBy_append (done : List (Effect × Answer)) (sent : Effect × Answer) :
    lockedBy config (done ++ [sent]) = lockStep config (lockedBy config done) sent := by
  simp [lockedBy]

theorem lastCommand_append (done : List (Effect × Answer)) (sent : Effect × Answer) :
    lastCommand (done ++ [sent]) = some sent.1 := by
  simp [lastCommand]

theorem created_append (history : List (BuilderEvent Worker)) (event : BuilderEvent Worker) :
    created config cereal (history ++ [event]) =
      created config cereal history ++ createdBy config cereal event := by
  simp [created]

theorem appended_append (history : List (BuilderEvent Worker)) (event : BuilderEvent Worker) :
    appended (history ++ [event]) = appended history ++ appendedBy event := by
  simp [appended]

end History

def inSection : Stage → Bool
  | .entered => true
  | .read _ => true
  | .drained _ => true
  | .closing => true
  | _ => false

abbrev Phases (Worker : Type) := Worker → Option (Stage × List (Effect × Answer))

/-- The commands a call has executed agree with its stage. -/
structure Consistent (config : Config) (stage : Stage) (done : List (Effect × Answer)) : Prop where
  locked : lockedBy config done = inSection stage
  drain : ∀ items, stage = .drained items →
    lastCommand done = some (.redis config.cacheService (.del config.txPoolKey))
  close : stage = .closing →
    lastCommand done ≠ some (.redis config.cacheService (.del config.txPoolKey))

/-- At most one call is in the section, and the lock exists while one is. -/
structure Guarded {Worker : Type} (config : Config) (shared : Servers)
    (phases : Phases Worker) : Prop where
  consistent : ∀ worker stage done, phases worker = some (stage, done) →
    Consistent config stage done
  alone : ∀ first second one two, phases first = some one → phases second = some two →
    inSection one.1 = true → inSection two.1 = true → first = second
  held : ∀ worker phase, phases worker = some phase → inSection phase.1 = true →
    (shared config.cacheService).lookup builderLock ≠ none

section Guard
variable {Worker : Type} [DecidableEq Worker] (config : Config)

/-- A step keeps the guard when it enters only past a missing lock, and gives
the lock up only from inside. -/
theorem guarded_step (before after : Servers) (phases : Phases Worker) (worker : Worker)
    (stage next : Stage) (done : List (Effect × Answer)) (sent : Effect × Answer)
    (guarded : Guarded config before phases) (found : phases worker = some (stage, done))
    (consistent : Consistent config next (done ++ [sent]))
    (entering : inSection next = true → inSection stage = true ∨
      (before config.cacheService).lookup builderLock = none)
    (locked : inSection next = true → (after config.cacheService).lookup builderLock ≠ none)
    (kept : inSection stage = true ∨ ((before config.cacheService).lookup builderLock ≠ none →
      (after config.cacheService).lookup builderLock ≠ none)) :
    Guarded config after (Function.update phases worker (some (next, done ++ [sent]))) := by
  have others : ∀ other phase, other ≠ worker → phases other = some phase →
      inSection phase.1 = true → inSection stage = false := by
    intro other phase different lookup inside
    cases mine : inSection stage with
    | false => rfl
    | true => exact absurd (guarded.alone other worker phase _ lookup found inside mine) different
  -- With another call inside, the lock exists, and this one cannot enter.
  have solitary : ∀ other phase, other ≠ worker → phases other = some phase →
      inSection phase.1 = true → inSection next = true → False := by
    intro other phase different lookup inside enters
    rcases entering enters with mine | free
    · rw [others other phase different lookup inside] at mine
      cases mine
    · exact guarded.held other phase lookup inside free
  constructor
  · intro other current record lookup
    rcases update_cases phases worker other _ _ lookup with ⟨rfl, ⟨⟩⟩ | ⟨-, lookup⟩
    · exact consistent
    · exact guarded.consistent other current record lookup
  · intro first second one two firstLookup secondLookup oneInside twoInside
    rcases update_cases phases worker first _ _ firstLookup with
      ⟨rfl, ⟨⟩⟩ | ⟨firstOther, firstBefore⟩
    · rcases update_cases phases first second _ _ secondLookup with
        ⟨rfl, -⟩ | ⟨secondOther, secondLookup⟩
      · rfl
      · exact (solitary second two secondOther secondLookup twoInside oneInside).elim
    · rcases update_cases phases worker second _ _ secondLookup with
        ⟨rfl, ⟨⟩⟩ | ⟨-, secondBefore⟩
      · exact (solitary first one firstOther firstBefore oneInside twoInside).elim
      · exact guarded.alone first second one two firstBefore secondBefore oneInside twoInside
  · intro other phase lookup inside
    rcases update_cases phases worker other _ _ lookup with ⟨rfl, ⟨⟩⟩ | ⟨different, lookup⟩
    · exact locked inside
    · rcases kept with mine | keeps
      · rw [others other phase different lookup inside] at mine
        cases mine
      · exact keeps (guarded.held other phase lookup inside)

/-- A worker that starts or ends a call outside the section. -/
theorem guarded_outside (shared : Servers) (phases : Phases Worker) (worker : Worker)
    (phase : Option (Stage × List (Effect × Answer))) (guarded : Guarded config shared phases)
    (consistent : ∀ stage done, phase = some (stage, done) → Consistent config stage done)
    (out : ∀ found, phase = some found → inSection found.1 = false) :
    Guarded config shared (Function.update phases worker phase) := by
  have present : ∀ other found, Function.update phases worker phase other = some found →
      inSection found.1 = true → phases other = some found := by
    intro other found lookup inside
    rcases update_cases phases worker other phase found lookup with ⟨-, here⟩ | ⟨-, lookup⟩
    · rw [out found here] at inside
      cases inside
    · exact lookup
  constructor
  · intro other stage done lookup
    rcases update_cases phases worker other phase _ lookup with ⟨-, here⟩ | ⟨-, lookup⟩
    · exact consistent stage done here
    · exact guarded.consistent other stage done lookup
  · intro first second one two firstLookup secondLookup oneInside twoInside
    exact guarded.alone first second one two (present _ _ firstLookup oneInside)
      (present _ _ secondLookup twoInside) oneInside twoInside
  · intro other found lookup inside
    exact guarded.held other found (present other found lookup inside) inside

end Guard

/-! Where every appended transaction is. -/

/-- `batch` is drained and not stored, `pooled` is in the pool. -/
structure Placed {Worker : Type} (cereal : Cereal) (phases : Phases Worker) (pool : List Bytes)
    (batch pooled : List Transaction) : Prop where
  pool : pool = pooled.map cereal.transaction.toString
  read : ∀ worker items done, phases worker = some (.read items, done) →
    ∃ seen later, pooled = seen ++ later ∧ items = seen.map cereal.transaction.toString
  drained : ∀ worker items done, phases worker = some (.drained items, done) →
    items = batch.map cereal.transaction.toString

/-- Stored, drained and pooled transactions together are some of the appended
ones, in their order. -/
def Traced {Worker : Type} (config : Config) (cereal : Cereal) (before : List Transaction)
    (shared : Servers) (phases : Phases Worker) (history : List (BuilderEvent Worker)) : Prop :=
  (∀ tx ∈ before ++ appended history, tx.Clean) ∧
    ∃ batch pooled,
      Placed cereal phases (poolOf config (shared config.cacheService)) batch pooled ∧
      ((created config cereal history).flatten ++ (batch ++ pooled)).Sublist
        (before ++ appended history)

/-- Stages that hold items of the pool. -/
def Carries (stage : Stage) : Prop :=
  (∃ items, stage = .read items) ∨ ∃ items, stage = .drained items

theorem not_carries_ended : ¬ Carries .ended := by
  rintro (⟨items, same⟩ | ⟨items, same⟩) <;> cases same

theorem not_carries_entered : ¬ Carries .entered := by
  rintro (⟨items, same⟩ | ⟨items, same⟩) <;> cases same

theorem not_carries_closing : ¬ Carries .closing := by
  rintro (⟨items, same⟩ | ⟨items, same⟩) <;> cases same

section Place
variable {Worker : Type} [DecidableEq Worker] (config : Config) (cereal : Cereal)
variable (before : List Transaction)

theorem placed_move (phases : Phases Worker) (pool : List Bytes) (batch pooled : List Transaction)
    (worker : Worker) (phase : Option (Stage × List (Effect × Answer)))
    (placed : Placed cereal phases pool batch pooled)
    (empty : ∀ found, phase = some found → ¬ Carries found.1) :
    Placed cereal (Function.update phases worker phase) pool batch pooled := by
  refine ⟨placed.pool, ?_, ?_⟩
  · intro other items record lookup
    rcases update_cases phases worker other phase _ lookup with ⟨-, here⟩ | ⟨-, lookup⟩
    · exact absurd (.inl ⟨items, rfl⟩) (empty _ here)
    · exact placed.read other items record lookup
  · intro other items record lookup
    rcases update_cases phases worker other phase _ lookup with ⟨-, here⟩ | ⟨-, lookup⟩
    · exact absurd (.inr ⟨items, rfl⟩) (empty _ here)
    · exact placed.drained other items record lookup

/-- From inside the section nobody else has read or drained anything. -/
theorem placed_inside (shared : Servers) (phases : Phases Worker) (worker : Worker)
    (stage next : Stage) (done : List (Effect × Answer)) (record : List (Effect × Answer))
    (guarded : Guarded config shared phases) (found : phases worker = some (stage, done))
    (inside : inSection stage = true) (pool : List Bytes) (batch pooled : List Transaction)
    (whole : pool = pooled.map cereal.transaction.toString)
    (read : ∀ items, next = .read items →
      ∃ seen later, pooled = seen ++ later ∧ items = seen.map cereal.transaction.toString)
    (drained : ∀ items, next = .drained items →
      items = batch.map cereal.transaction.toString) :
    Placed cereal (Function.update phases worker (some (next, record))) pool batch pooled := by
  refine ⟨whole, ?_, ?_⟩
  · intro other items current lookup
    rcases update_cases phases worker other _ _ lookup with ⟨-, ⟨⟩⟩ | ⟨different, lookup⟩
    · exact read items rfl
    · exact absurd (guarded.alone other worker _ _ lookup found rfl inside) different
  · intro other items current lookup
    rcases update_cases phases worker other _ _ lookup with ⟨-, ⟨⟩⟩ | ⟨different, lookup⟩
    · exact drained items rfl
    · exact absurd (guarded.alone other worker _ _ lookup found rfl inside) different

/-- A step that leaves the pool alone and records nothing. -/
theorem traced_move (shared after : Servers) (phases : Phases Worker)
    (history : List (BuilderEvent Worker)) (worker : Worker) (stage : Stage)
    (record : List (Effect × Answer)) (event : BuilderEvent Worker)
    (traced : Traced config cereal before shared phases history) (empty : ¬ Carries stage)
    (kept : poolOf config (after config.cacheService) = poolOf config (shared config.cacheService))
    (noBlock : createdBy config cereal event = []) (noAppend : appendedBy event = []) :
    Traced config cereal before after (Function.update phases worker (some (stage, record)))
      (history ++ [event]) := by
  obtain ⟨clean, batch, pooled, placed, sublist⟩ := traced
  refine ⟨?_, batch, pooled, ?_, ?_⟩
  · simpa [appended_append, noAppend] using clean
  · rw [kept]
    exact placed_move cereal phases _ batch pooled worker _ placed fun _ here => by
      cases here
      exact empty
  · simpa [created_append, appended_append, noBlock, noAppend] using sublist

end Place

/-! What the commands do to the lock and the pool. -/

section Effects
variable (config : Config) (throws : Bytes → Bool) (shared : Servers)

/-- A plain `SET` removes no record, and at most the pool is overwritten. -/
theorem serve_set (key text : Bytes) (duration : UInt32) (service : Bytes) :
    (∀ other, (shared config.cacheService).lookup other ≠ none →
      ((serve throws (.redis service (.set key text duration .always)) shared).2
        config.cacheService).lookup other ≠ none) ∧
    (poolOf config ((serve throws (.redis service (.set key text duration .always)) shared).2
        config.cacheService) = poolOf config (shared config.cacheService) ∨
      poolOf config ((serve throws (.redis service (.set key text duration .always)) shared).2
        config.cacheService) = []) := by
  have insert : ∀ db : Db, (exec (.set key text duration .always) db).2 =
      db.insert key (.string text) := fun db => by simp only [exec]
  constructor
  · intro other present
    by_cases same : other = key
    · simp only [serve]
      by_cases here : config.cacheService = service
      · subst here
        rw [Function.update_self, insert, same, Finmap.lookup_insert]
        simp
      · rw [Function.update_of_ne here]
        exact present
    · rw [serve_lookup_other throws shared config.cacheService service other _
        fun db => exec_set_other db key text other duration .always same]
      exact present
  · by_cases same : config.txPoolKey = key
    · simp only [serve]
      by_cases here : config.cacheService = service
      · right
        subst here
        rw [Function.update_self, insert, poolOf, same, Finmap.lookup_insert]
        rfl
      · left
        rw [Function.update_of_ne here]
    · left
      simp only [poolOf]
      rw [serve_lookup_other throws shared config.cacheService service _ _
        fun db => exec_set_other db key text _ duration .always same]

theorem pool_after_set (cereal : Cereal) (key text : Bytes) (duration : UInt32) (service : Bytes)
    (pooled : List Transaction)
    (whole : poolOf config (shared config.cacheService) =
      pooled.map cereal.transaction.toString) :
    ∃ rest : List Transaction,
      poolOf config ((serve throws (.redis service (.set key text duration .always)) shared).2
        config.cacheService) = rest.map cereal.transaction.toString ∧ rest.Sublist pooled := by
  rcases (serve_set config throws shared key text duration service).2 with kept | gone
  · exact ⟨pooled, by rw [kept, whole], List.Sublist.refl _⟩
  · exact ⟨[], by rw [gone]; rfl, List.nil_sublist _⟩

end Effects

/-! One step of each stage. -/

structure Sound {Worker : Type} (config : Config) (cereal : Cereal) (before : List Transaction)
    (shared : Servers) (phases : Phases Worker) (history : List (BuilderEvent Worker)) : Prop where
  guarded : Guarded config shared phases
  traced : Traced config cereal before shared phases history

theorem consistent_next (config : Config) (stage next : Stage) (done : List (Effect × Answer))
    (sent : Effect × Answer) (consistent : Consistent config stage done)
    (lock : lockStep config (inSection stage) sent = inSection next)
    (drain : ∀ items, next = .drained items →
      sent.1 = .redis config.cacheService (.del config.txPoolKey))
    (close : next = .closing → sent.1 ≠ .redis config.cacheService (.del config.txPoolKey)) :
    Consistent config next (done ++ [sent]) := by
  refine ⟨?_, ?_, ?_⟩
  · rw [lockedBy_append, consistent.locked, lock]
  · intro items same
    rw [lastCommand_append, drain items same]
  · intro same
    rw [lastCommand_append]
    exact fun equal => close same (Option.some.inj equal)

section Steps
variable {Worker : Type} [DecidableEq Worker]
variable (config : Config) (cereal : Cereal) (throws : Bytes → Bool) (before : List Transaction)
variable (shared : Servers) (phases : Phases Worker) (history : List (BuilderEvent Worker))
variable (worker : Worker) (job : BuilderJob) (done : List (Effect × Answer))
variable (sound : Sound config cereal before shared phases history)
include sound

/-- A step that touches neither the lock nor the pool, nor stores a block. -/
theorem step_plain (after : Servers) (stage next : Stage) (sent : Effect × Answer)
    (found : phases worker = some (stage, done))
    (lockKept : (after config.cacheService).lookup builderLock =
      (shared config.cacheService).lookup builderLock)
    (poolKept : poolOf config (after config.cacheService) =
      poolOf config (shared config.cacheService))
    (stays : inSection next = inSection stage) (lock : lockStep config (inSection stage) sent =
      inSection next)
    (command : sent.1 ≠ .redis config.cacheService (.del config.txPoolKey))
    (empty : ¬ Carries next)
    (noBlock : createdBy config cereal (.executed worker job done sent.1 sent.2) = [])
    (noAppend : appendedBy (.executed worker job done sent.1 sent.2 : BuilderEvent Worker) = []) :
    Sound config cereal before after
      (Function.update phases worker (some (next, done ++ [sent])))
      (history ++ [.executed worker job done sent.1 sent.2]) := by
  have consistent : Consistent config next (done ++ [sent]) :=
    consistent_next config stage next done sent
      (sound.guarded.consistent worker stage done found) lock
      (fun items same => absurd (.inr ⟨items, same⟩) empty) fun _ => command
  constructor
  · apply guarded_step config shared after phases worker stage next done sent sound.guarded found
      consistent
    · exact fun inside => .inl (stays ▸ inside)
    · intro inside
      rw [lockKept]
      exact sound.guarded.held worker _ found (stays ▸ inside)
    · exact .inr fun present => by rwa [lockKept]
  · exact traced_move config cereal before shared after phases history worker next _ _
      sound.traced empty poolKept noBlock noAppend

variable (distinct : config.txPoolKey ≠ builderLock)
include distinct

theorem step_pushing (tx : Transaction) (clean : tx.Clean)
    (found : phases worker = some (.pushing tx clean, done))
    (accepted : (exec (.rpush config.txPoolKey [cereal.transaction.toString tx])
      (shared config.cacheService)).1 ≠ .error) (answer : Answer) :
    Sound config cereal before
      (serve throws (.redis config.cacheService
        (.rpush config.txPoolKey [cereal.transaction.toString tx])) shared).2
      (Function.update phases worker (some (.ended, done ++
        [(.redis config.cacheService
          (.rpush config.txPoolKey [cereal.transaction.toString tx]), answer)])))
      (history ++ [.executed worker (.push tx clean) done (.redis config.cacheService
        (.rpush config.txPoolKey [cereal.transaction.toString tx])) answer]) := by
  have lockKept := serve_lookup_other throws shared config.cacheService config.cacheService
    builderLock
    (.rpush config.txPoolKey [cereal.transaction.toString tx])
    fun db => exec_rpush_other db _ _ _ (Ne.symm distinct)
  have pushed : poolOf config ((serve throws (.redis config.cacheService
      (.rpush config.txPoolKey [cereal.transaction.toString tx])) shared).2
        config.cacheService) =
      poolOf config (shared config.cacheService) ++ [cereal.transaction.toString tx] := by
    have record := afterPush_accepted _ _ _ accepted
    rw [afterPush] at record
    simp [serve, poolOf, record, itemsIn]
  constructor
  · apply guarded_step config shared _ phases worker (.pushing tx clean) .ended done _
      sound.guarded found
    · exact consistent_next config _ .ended done _
        (sound.guarded.consistent worker _ done found) rfl (fun _ same => by cases same)
        fun same => by cases same
    · exact fun inside => by cases inside
    · exact fun inside => by cases inside
    · exact .inr fun present => by rwa [lockKept]
  · obtain ⟨cleanLog, batch, pooled, placed, sublist⟩ := sound.traced
    refine ⟨?_, batch, pooled ++ [tx], ?_, ?_⟩
    · intro other member
      rw [appended_append, ← List.append_assoc] at member
      rcases List.mem_append.mp member with old | new
      · exact cleanLog other old
      · rw [List.mem_singleton.mp new]
        exact clean
    · have moved := placed_move cereal phases _ batch pooled worker (some (.ended,
        done ++ [(.redis config.cacheService
          (.rpush config.txPoolKey [cereal.transaction.toString tx]), answer)])) placed
        (by rintro found ⟨⟩; exact not_carries_ended)
      refine ⟨?_, ?_, moved.drained⟩
      · rw [pushed, moved.pool, List.map_append]
        rfl
      · intro other items record lookup
        obtain ⟨seen, later, whole, same⟩ := moved.read other items record lookup
        exact ⟨seen, later ++ [tx], by rw [whole, List.append_assoc], same⟩
    · rw [created_append, appended_append]
      simp only [createdBy, appendedBy, List.append_nil]
      rw [← List.append_assoc, ← List.append_assoc, ← List.append_assoc,
        List.append_assoc _ batch]
      exact sublist.append (List.Sublist.refl [tx])

theorem step_outside (id : Bytes) (found : phases worker = some (.outside, done)) :
    Sound config cereal before
      (serve throws (.redis config.cacheService (.set builderLock id 0 .nx)) shared).2
      (Function.update phases worker (some
        (if statusAnswer (serve throws (.redis config.cacheService (.set builderLock id 0 .nx))
          shared).1 then .entered else .ended,
        done ++ [(.redis config.cacheService (.set builderLock id 0 .nx),
          (serve throws (.redis config.cacheService (.set builderLock id 0 .nx)) shared).1)])))
      (history ++ [.executed worker job done
        (.redis config.cacheService (.set builderLock id 0 .nx))
        (serve throws (.redis config.cacheService (.set builderLock id 0 .nx)) shared).1]) := by
  have poolKept : poolOf config ((serve throws (.redis config.cacheService
      (.set builderLock id 0 .nx)) shared).2 config.cacheService) =
      poolOf config (shared config.cacheService) := by
    simp only [poolOf]
    rw [serve_lookup_other throws shared config.cacheService config.cacheService _ _
      fun db => exec_set_other db _ _ _ _ _ distinct]
  have same := sound.guarded.consistent worker _ done found
  cases free : (shared config.cacheService).lookup builderLock with
  | none =>
      have answer : (serve throws (.redis config.cacheService (.set builderLock id 0 .nx))
          shared).1 = .reply .status := by
        simp [serve, exec, free]
      rw [answer]
      constructor
      · apply guarded_step config shared _ phases worker .outside .entered done _
          sound.guarded found
        · exact consistent_next config _ .entered done _ same (by simp [lockStep, inSection])
            (fun _ same => by cases same) fun same => by cases same
        · exact fun _ => .inr free
        · intro _
          simp [serve, exec, free]
        · exact .inr fun present => absurd free present
      · exact traced_move config cereal before shared _ phases history worker .entered _ _
          sound.traced not_carries_entered poolKept rfl
          (by cases job <;> rfl)
  | some value =>
      have answer : (serve throws (.redis config.cacheService (.set builderLock id 0 .nx))
          shared).1 = .reply .nil := by
        simp [serve, exec, free]
      have kept : ((serve throws (.redis config.cacheService (.set builderLock id 0 .nx))
          shared).2 config.cacheService).lookup builderLock =
          (shared config.cacheService).lookup builderLock := by
        simp [serve, exec, free]
      rw [answer]
      exact step_plain config cereal before shared phases history worker job done sound _
        .outside .ended (_, .reply .nil) found kept poolKept rfl rfl (by simp)
        not_carries_ended rfl (by cases job <;> rfl)

omit distinct in
theorem step_entered_drain (found : phases worker = some (.entered, done)) :
    Sound config cereal before shared
      (Function.update phases worker (some (.read (poolOf config (shared config.cacheService)),
        done ++ [(.redis config.cacheService (.lrange config.txPoolKey 0 (-1)),
          .reply (.array (poolOf config (shared config.cacheService))))])))
      (history ++ [.executed worker job done
        (.redis config.cacheService (.lrange config.txPoolKey 0 (-1)))
        (.reply (.array (poolOf config (shared config.cacheService))))]) := by
  have same := sound.guarded.consistent worker _ done found
  constructor
  · apply guarded_step config shared shared phases worker .entered _ done _ sound.guarded found
    · exact consistent_next config _ _ done _ same rfl (fun _ same => by cases same)
        fun same => by cases same
    · exact fun _ => .inl rfl
    · exact fun _ => sound.guarded.held worker _ found rfl
    · exact .inl rfl
  · obtain ⟨clean, batch, pooled, placed, sublist⟩ := sound.traced
    refine ⟨?_, batch, pooled, ?_, ?_⟩
    · simpa [appended_append, appendedBy] using clean
    · apply placed_inside config cereal shared phases worker .entered _ done _ sound.guarded found
        rfl _ batch pooled placed.pool
      · intro items same
        cases same
        exact ⟨pooled, [], by simp, placed.pool⟩
      · intro items same
        cases same
    · simpa [created_append, appended_append, createdBy, appendedBy] using sublist

theorem step_read (items : List Bytes) (found : phases worker = some (.read items, done))
    (answer : Answer) :
    Sound config cereal before
      (serve throws (.redis config.cacheService (.del config.txPoolKey)) shared).2
      (Function.update phases worker (some (.drained items,
        done ++ [(.redis config.cacheService (.del config.txPoolKey), answer)])))
      (history ++ [.executed worker job done
        (.redis config.cacheService (.del config.txPoolKey)) answer]) := by
  have same := sound.guarded.consistent worker _ done found
  have lockKept := serve_lookup_other throws shared config.cacheService config.cacheService
    builderLock
    (.del config.txPoolKey) fun db => exec_del_other db _ _ (Ne.symm distinct)
  have emptied : poolOf config ((serve throws (.redis config.cacheService
      (.del config.txPoolKey)) shared).2 config.cacheService) = [] := by
    simp [serve, exec, poolOf, itemsIn]
  constructor
  · apply guarded_step config shared _ phases worker (.read items) _ done _ sound.guarded found
    · exact consistent_next config _ _ done _ same (by simp [lockStep, inSection, distinct])
        (fun _ _ => rfl) fun same => by cases same
    · exact fun _ => .inl rfl
    · intro _
      rw [lockKept]
      exact sound.guarded.held worker _ found rfl
    · exact .inl rfl
  · obtain ⟨clean, batch, pooled, placed, sublist⟩ := sound.traced
    obtain ⟨seen, later, whole, texts⟩ := placed.read worker items done found
    refine ⟨?_, seen, [], ?_, ?_⟩
    · simpa [appended_append, appendedBy] using clean
    · apply placed_inside config cereal shared phases worker (.read items) _ done _ sound.guarded
        found rfl _ seen [] emptied
      · intro other same
        cases same
      · intro other same
        cases same
        exact texts
    · -- The old batch was stored or abandoned before this call entered.
      have part : (seen ++ []).Sublist (batch ++ pooled) := by
        rw [List.append_nil, whole]
        exact (List.sublist_append_left seen later).trans (List.sublist_append_right batch _)
      have all := (part.append_left ((created config cereal history).flatten)).trans sublist
      simpa [created_append, appended_append, createdBy, appendedBy] using all

omit distinct in
/-- Writing a block from inside the section keeps the lock. -/
theorem guarded_store (key text : Bytes) (answer : Answer) (stage : Stage)
    (found : phases worker = some (stage, done)) (inside : inSection stage = true) :
    Guarded config (serve throws (.redis config.dbService (.set key text (-1) .always)) shared).2
      (Function.update phases worker (some (.closing,
        done ++ [(.redis config.dbService (.set key text (-1) .always), answer)]))) := by
  have same := sound.guarded.consistent worker _ done found
  obtain ⟨present, -⟩ := serve_set config throws shared key text (-1) config.dbService
  apply guarded_step config shared _ phases worker stage .closing done _ sound.guarded found
  · exact consistent_next config _ _ done _ same inside (fun _ same => by cases same)
      fun _ => by simp
  · exact fun _ => .inl inside
  · exact fun _ => present builderLock (sound.guarded.held worker _ found inside)
  · exact .inl inside

omit distinct in
/-- Storing a block after the drain turns the batch into a created block. -/
theorem step_drained_store (lawful : cereal.Lawful) (items : List Bytes)
    (found : phases worker = some (.drained items, done)) (block : Block)
    (blockClean : block.Clean) (memory : Nat → Uninitialized)
    (loaded : block._txList = loadAll cereal memory items) (answer : Answer) :
    Sound config cereal before
      (serve throws (.redis config.dbService
        (.set block._id (cereal.block.toString block) (-1) .always)) shared).2
      (Function.update phases worker (some (.closing, done ++ [(.redis config.dbService
        (.set block._id (cereal.block.toString block) (-1) .always), answer)])))
      (history ++ [.executed worker job done (.redis config.dbService
        (.set block._id (cereal.block.toString block) (-1) .always)) answer]) := by
  have same := sound.guarded.consistent worker _ done found
  constructor
  · exact guarded_store config cereal throws before shared phases history worker done sound
      block._id (cereal.block.toString block) answer (.drained items) found rfl
  · obtain ⟨clean, batch, pooled, placed, sublist⟩ := sound.traced
    have texts := placed.drained worker items done found
    have batchClean : ∀ tx ∈ batch, tx.Clean := fun tx member =>
      clean tx (sublist.subset (by simp [member]))
    have stored : createdBy config cereal (.executed worker job done (.redis config.dbService
        (.set block._id (cereal.block.toString block) (-1) .always)) answer) = [batch] := by
      simp only [createdBy, same.drain items rfl, ↓reduceIte,
        lawful.block.round block _ blockClean]
      rw [loaded, texts, loadAll_toString cereal lawful memory batch batchClean]
    have unlisted : appendedBy (.executed worker job done (.redis config.dbService
        (.set block._id (cereal.block.toString block) (-1) .always)) answer :
        BuilderEvent Worker) = [] := by
      cases job <;> rfl
    obtain ⟨rest, wholeRest, partRest⟩ := pool_after_set config throws shared cereal block._id
      (cereal.block.toString block) (-1) config.dbService pooled placed.pool
    -- The batch moves from the call to the created blocks.
    refine ⟨?_, [], rest, ?_, ?_⟩
    · simpa [appended_append, unlisted] using clean
    · apply placed_inside config cereal shared phases worker (.drained items) .closing done _
        sound.guarded found rfl _ [] rest wholeRest
      · intro other same
        cases same
      · intro other same
        cases same
    · rw [created_append, appended_append, stored, unlisted, List.append_nil]
      simp only [List.flatten_append, List.flatten_cons, List.flatten_nil, List.append_nil,
        List.nil_append, List.append_assoc]
      exact ((partRest.append_left batch).append_left _).trans sublist

omit distinct in
/-- The last block is written again; no new block is stored. -/
theorem step_closing_store (key text : Bytes) (answer : Answer)
    (found : phases worker = some (.closing, done)) :
    Sound config cereal before
      (serve throws (.redis config.dbService (.set key text (-1) .always)) shared).2
      (Function.update phases worker (some (.closing,
        done ++ [(.redis config.dbService (.set key text (-1) .always), answer)])))
      (history ++ [.executed worker job done
        (.redis config.dbService (.set key text (-1) .always)) answer]) := by
  have same := sound.guarded.consistent worker _ done found
  constructor
  · exact guarded_store config cereal throws before shared phases history worker done sound key
      text answer .closing found rfl
  · obtain ⟨clean, batch, pooled, placed, sublist⟩ := sound.traced
    have unlisted : appendedBy (.executed worker job done (.redis config.dbService
        (.set key text (-1) .always)) answer : BuilderEvent Worker) = [] := by
      cases job <;> rfl
    have unstored : createdBy config cereal (.executed worker job done (.redis config.dbService
        (.set key text (-1) .always)) answer) = [] := by
      simp [createdBy, same.close rfl]
    obtain ⟨rest, wholeRest, partRest⟩ := pool_after_set config throws shared cereal key text (-1)
      config.dbService pooled placed.pool
    refine ⟨?_, batch, rest, ?_, ?_⟩
    · simpa [appended_append, unlisted] using clean
    · apply placed_inside config cereal shared phases worker .closing .closing done _
        sound.guarded found rfl _ batch rest wholeRest
      · intro other same
        cases same
      · intro other same
        cases same
    · rw [created_append, appended_append, unstored, unlisted, List.append_nil, List.append_nil]
      exact ((partRest.append_left batch).append_left _).trans sublist

theorem step_release (answer : Answer) (found : phases worker = some (.closing, done)) :
    Sound config cereal before
      (serve throws (.redis config.cacheService (.del builderLock)) shared).2
      (Function.update phases worker (some (.ended,
        done ++ [(.redis config.cacheService (.del builderLock), answer)])))
      (history ++ [.executed worker job done
        (.redis config.cacheService (.del builderLock)) answer]) := by
  have same := sound.guarded.consistent worker _ done found
  have poolKept : poolOf config ((serve throws (.redis config.cacheService (.del builderLock))
      shared).2 config.cacheService) = poolOf config (shared config.cacheService) := by
    simp only [poolOf]
    rw [serve_lookup_other throws shared config.cacheService config.cacheService _ _
      fun db => exec_del_other db _ _ distinct]
  constructor
  · apply guarded_step config shared _ phases worker .closing .ended done _ sound.guarded found
    · exact consistent_next config _ _ done _ same (by simp [lockStep, inSection])
        (fun _ same => by cases same) fun same => by cases same
    · exact fun inside => by cases inside
    · exact fun inside => by cases inside
    · exact .inl rfl
  · exact traced_move config cereal before shared _ phases history worker .ended _ _
      sound.traced not_carries_ended poolKept rfl (by cases job <;> rfl)

end Steps

section Run
variable {Worker : Type} [DecidableEq Worker]
variable (config : Config) (cereal : Cereal) (throws : Bytes → Bool)

omit [DecidableEq Worker] in
theorem entry_consistent (worker : Worker) (job : BuilderJob) :
    Consistent config ((building Worker config cereal).entry worker job) [] := by
  refine ⟨?_, ?_, ?_⟩
  · cases job <;> rfl
  · intro items same
    cases job <;> cases same
  · intro same
    cases job <;> cases same

theorem sound_keeps (lawful : cereal.Lawful) (distinct : config.txPoolKey ≠ builderLock)
    (before : List Transaction) :
    (building Worker config cereal).remember.Keeps (serve throws)
      (fun phase (_ : BuilderResult) => Anyway phase.1 ()) (Answering (serve throws) succeeded)
      (Sound config cereal before) where
  begins pool worker job absent _ sound := by
    constructor
    · apply guarded_outside config pool.shared _ worker _ sound.guarded
      · rintro stage done ⟨⟩
        exact entry_consistent config cereal worker job
      · rintro found ⟨⟩
        cases job <;> rfl
    · obtain ⟨clean, batch, pooled, placed, sublist⟩ := sound.traced
      refine ⟨clean, batch, pooled, ?_, sublist⟩
      apply placed_move cereal _ _ batch pooled worker _ placed
      rintro found ⟨⟩ (⟨items, same⟩ | ⟨items, same⟩)
      · cases job <;> cases same
      · cases job <;> cases same
  issues pool worker call command next running rest allowed accepting sound := by
    have answered := accepting command
      (nextCommand_eq pool worker call command next running rest)
    have found := (building Worker config cereal).remember_running pool worker call running
    rw [Discipline.remember_phaseOf] at allowed ⊢
    change Allowed config cereal ((building Worker config cereal).phaseOf worker call)
      command at allowed
    change Sound config cereal before _ (Function.update _ worker (some
      (nextStage ((building Worker config cereal).phaseOf worker call) command
        (serve throws command pool.shared).1,
      call.done ++ [(command, (serve throws command pool.shared).1)]))) _
    -- One case for each stage, and in it one for each command it allows.
    generalize stage : (building Worker config cereal).phaseOf worker call = current at *
    have reads : ∀ service key, (serve throws (.redis service (.get key)) pool.shared).2 =
        pool.shared := by
      intro service key
      simp [serve, exec_get_db]
    cases current with
    | ended => exact allowed.elim
    | pushing tx clean =>
        have job := phaseOf_pushing config cereal worker call tx clean stage
        cases allowed
        rw [job]
        exact step_pushing config cereal throws before pool.shared _ pool.history worker call.done
          sound distinct tx clean found ((succeeded_reply _).mp answered) _
    | outside =>
        obtain ⟨id, rfl⟩ := allowed
        exact step_outside config cereal throws before pool.shared _ pool.history worker call.job
          call.done sound distinct id found
    | entered =>
        rcases allowed with rfl | rfl
        · exact step_plain config cereal before pool.shared _ pool.history worker call.job
            call.done sound _ .entered .entered (_, _) found (by rw [reads]) (by rw [reads]) rfl
            rfl (by simp) not_carries_entered rfl (by cases call.job <;> rfl)
        · have whole := lrange_all (pool.shared config.cacheService) config.txPoolKey
            ((succeeded_reply _).mp answered)
          have same : serve throws (.redis config.cacheService
              (.lrange config.txPoolKey 0 (-1))) pool.shared =
              (.reply (.array (poolOf config (pool.shared config.cacheService))),
                pool.shared) := by
            simp [serve, whole, poolOf]
          rw [same]
          exact step_entered_drain config cereal before pool.shared _ pool.history worker
            call.job call.done sound found
    | read items =>
        cases allowed
        exact step_read config cereal throws before pool.shared _ pool.history worker call.job
          call.done sound distinct items found _
    | drained items =>
        rcases allowed with ⟨block, memory, clean, loaded, rfl⟩ | rfl
        · exact step_drained_store config cereal throws before pool.shared _ pool.history worker
            call.job call.done sound lawful items found block clean memory loaded _
        · exact step_plain config cereal before pool.shared _ pool.history worker call.job
            call.done sound _ (.drained items) .closing (_, _) found (by rw [reads])
            (by rw [reads]) rfl rfl (by simp) not_carries_closing rfl
            (by cases call.job <;> rfl)
    | closing =>
        have members : ∀ key, (serve throws (.redis config.cacheService (.smembers key))
            pool.shared).2 = pool.shared := by
          intro key
          simp [serve, exec_smembers_db]
        rcases allowed with ⟨key, text, rfl⟩ | rfl | ⟨ipport, body, rfl⟩ | rfl | rfl
        · exact step_closing_store config cereal throws before pool.shared _ pool.history worker
            call.job call.done sound key text _ found
        · exact step_plain config cereal before pool.shared _ pool.history worker call.job
            call.done sound _ .closing .closing (_, _) found (by rw [members]) (by rw [members])
            rfl rfl (by simp) not_carries_closing rfl (by cases call.job <;> rfl)
        · exact step_plain config cereal before pool.shared _ pool.history worker call.job
            call.done sound _ .closing .closing (_, _) found rfl rfl rfl rfl (by simp)
            not_carries_closing rfl (by cases call.job <;> rfl)
        · exact step_plain config cereal before pool.shared _ pool.history worker call.job
            call.done sound _ .closing .closing (_, _) found (by rw [reads]) (by rw [reads])
            rfl rfl (by simp) not_carries_closing rfl (by cases call.job <;> rfl)
        · exact step_release config cereal throws before pool.shared _ pool.history worker
            call.job call.done sound distinct _ found
  returns shared phases history worker job phase result found _ sound := by
    constructor
    · exact guarded_outside config shared phases worker none sound.guarded
        (fun _ _ here => by cases here) fun _ here => by cases here
    · obtain ⟨clean, batch, pooled, placed, sublist⟩ := sound.traced
      refine ⟨?_, batch, pooled, ?_, ?_⟩
      · simpa [appended_append, appendedBy] using clean
      · exact placed_move cereal phases _ batch pooled worker none placed fun _ here => by
          cases here
      · simpa [created_append, appended_append, createdBy, appendedBy] using sublist

end Run

/-- The worker is between a successful `tryLock` and the `DEL` of its
`releaseLock`. -/
def Inside {Worker : Type} (config : Config)
    (pool : Pool Worker BuilderJob Effect Answer BuilderResult Servers) (worker : Worker) : Prop :=
  ∃ call, pool.running worker = some call ∧ lockedBy config call.done = true

/-- In every interleaving at most one worker is inside, and the transactions
of all created blocks, one block after the other, are some of the appended
ones in their order: no occurrence is used twice. -/
theorem builders_exclude_and_use_once {Worker : Type} [DecidableEq Worker] (config : Config)
    (cereal : Cereal) (rand : UInt32 → Nat → Nat) (self : Worker → FPService)
    (throws : Bytes → Bool) (lawful : cereal.Lawful) (named : config.txPoolKey ≠ [])
    (distinct : config.txPoolKey ≠ builderLock) (start : Servers) (before : List Transaction)
    (clean : ∀ tx ∈ before, tx.Clean)
    (pooled : poolOf config (start config.cacheService) =
      before.map cereal.transaction.toString)
    (schedule : List (Choice Worker BuilderJob))
    (accepting : Along (serve throws) (builders config cereal rand self)
      (Answering (serve throws) succeeded) (idle start) schedule) :
    let pool := runPool (serve throws) (builders config cereal rand self) (idle start) schedule
    (∀ first second, Inside config pool first → Inside config pool second → first = second) ∧
      (created config cereal pool.history).flatten.Sublist
        (before ++ appended pool.history) := by
  intro pool
  have absent : ∀ (worker : Worker) phase, (building Worker config cereal).remember.phases
      (idle start : Pool Worker BuilderJob Effect Answer BuilderResult Servers) worker ≠
      some phase := by
    simp [Discipline.idle_phases]
  obtain ⟨-, sound⟩ := Discipline.run_keeps (sound_keeps config cereal throws lawful distinct
      before)
    (fun _ worker job _ => Discipline.remember_follows _ _ _ [] _
      (builders_follows config cereal lawful named self rand worker job))
    (idle start) schedule accepting (Discipline.idle_tracked start)
    { guarded :=
        ⟨fun worker _ _ lookup => absurd lookup (absent worker _),
          fun first _ _ _ lookup => absurd lookup (absent first _),
          fun worker _ lookup => absurd lookup (absent worker _)⟩
      traced := by
        refine ⟨by simpa [appended] using clean, [], before, ⟨pooled, ?_, ?_⟩, ?_⟩
        · exact fun worker _ _ lookup => absurd lookup (absent worker _)
        · exact fun worker _ _ lookup => absurd lookup (absent worker _)
        · simp [created, appended] }
  constructor
  · have phase : ∀ worker, Inside config pool worker → ∃ stage done,
        (building Worker config cereal).remember.phases pool worker = some (stage, done) ∧
          inSection stage = true := by
      rintro worker ⟨call, running, locked⟩
      have found := (building Worker config cereal).remember_running pool worker call running
      exact ⟨_, _, found, by rw [← (sound.guarded.consistent worker _ _ found).locked, locked]⟩
    intro first second one two
    obtain ⟨firstStage, firstDone, firstFound, firstInside⟩ := phase first one
    obtain ⟨secondStage, secondDone, secondFound, secondInside⟩ := phase second two
    exact sound.guarded.alone first second _ _ firstFound secondFound firstInside secondInside
  · obtain ⟨-, batch, pooled, -, sublist⟩ := sound.traced
    exact (List.sublist_append_left _ _).trans sublist

def payment : Transaction := ⟨ascii "t1", alice, bob, 4, 0⟩

def moment : Moment := ⟨0, 0, fun _ => ⟨0, 0⟩⟩

/-- One append, then two workers that both try to build a block. -/
def contended : List (Choice Bool BuilderJob) :=
  [.start false (.push payment (by decide)), .advance false, .start false (.build moment),
    .start true (.build moment), .advance false, .advance true, .advance false, .advance false,
    .advance false, .advance false]

theorem builders_exclude_and_use_once_contended :
    let pool := runPool (serve fun _ => false)
      (builders rootServerConf CerealJson.cerealJson glibcRand fun _ => rootService)
      (idle fun _ => ∅) contended
    (∀ first second, Inside rootServerConf pool first → Inside rootServerConf pool second →
      first = second) ∧
      (created rootServerConf CerealJson.cerealJson pool.history).flatten.Sublist
        ([] ++ appended pool.history) :=
  builders_exclude_and_use_once rootServerConf CerealJson.cerealJson glibcRand
    (fun _ => rootService) (fun _ => false) CerealJson.cerealJson_lawful (by decide +kernel)
    (by decide +kernel) (fun _ => ∅) [] (by simp) rfl contended (by decide +kernel)

end FPayNode.BlockBuilders
