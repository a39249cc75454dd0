import FPayNode.NodeService

/-!
`handleTransaction` on the root node, as the commands it issues: the balance
is read, a covered transfer is debited and credited, and every transaction
whose sender was read is appended to the pool. Run alone, it is one function
on the database of the cache service.
-/

namespace FPayNode.RootTransaction

open CommandProgram DecimalText RedisServer RedisCache Messages NodeService

section Form
variable (config : Config) (cereal : Cereal)

def submit (tx : Transaction) : Calls (Except Thrown Bool) :=
  if config.txPoolKey = [] then .finish (.ok true)
  else .issue (.redis config.cacheService
      (.rpush config.txPoolKey [cereal.transaction.toString tx])) fun _ => .finish (.ok true)

def credit (tx : Transaction) : Calls (Except Thrown Bool) :=
  if tx._to = [] then submit config cereal tx
  else .issue (.redis config.cacheService (.incrBy tx._to tx._value)) fun _ =>
    submit config cereal tx

def debit (tx : Transaction) : Calls (Except Thrown Bool) :=
  .issue (.redis config.cacheService (.incrBy tx._from (-tx._value))) fun _ =>
    credit config cereal tx

/-- What follows the balance check. -/
def decided (tx : Transaction) (answer : Answer) : Calls (Except Thrown Bool) :=
  if (textOf [] answer).1 = false then .finish (.ok false)
  else if tx._value.toInt ≤ atoll (textOf [] answer).2 then debit config cereal tx
  else submit config cereal tx

theorem covers_iff (text : Bytes) (value : Int64) :
    Int64.ofInt (atoll text) ≥ value ↔ value.toInt ≤ atoll text := by
  rw [ge_iff_le, Int64.le_iff_toInt_le, toInt_ofInt _ (atoll_fits text)]

variable (self : FPService)

theorem handleTransaction_root (root : self._nodeRole = .root) (tx : Transaction)
    (written : cereal.transaction.toString tx ≠ []) :
    handleTransaction config cereal self tx =
      if tx._from = [] then .finish (.ok false)
      else .issue (.redis config.cacheService (.get tx._from)) (decided config cereal tx) := by
  simp only [handleTransaction, queryBalance]
  by_cases unknown : tx._from = []
  · simp [get_form, unknown]
  · simp only [get_form, unknown, ↓reduceIte, Program.issue_bind, Program.finish_bind]
    congr 1
    funext answer
    simp only [decided]
    cases found : (textOf [] answer).1 with
    | false => simp
    | true =>
        simp only [Bool.false_eq_true, ↓reduceIte, Program.pure_def, Program.finish_bind,
          Bool.not_true, root, covers_iff, List.isEmpty_iff, written, enQueue_form]
        by_cases covered : tx._value.toInt ≤ atoll (textOf [] answer).2
        · simp only [covered, ↓reduceIte, debit, credit, submit, incrBy_form, unknown]
          by_cases nowhere : tx._to = []
          · by_cases unnamed : config.txPoolKey = [] <;> simp [nowhere, unnamed]
          · by_cases unnamed : config.txPoolKey = [] <;> simp [nowhere, unnamed]
        · by_cases unnamed : config.txPoolKey = [] <;> simp [covered, submit, unnamed]

end Form

/-! The database after each part of a call. -/

def balanceOf (db : Db) (account : Bytes) : Int := reading (db.lookup account)

theorem balanceOf_fits (db : Db) (account : Bytes) : Fits (balanceOf db account) :=
  reading_fits _

def poolOf (config : Config) (db : Db) : List Bytes := itemsIn (db.lookup config.txPoolKey)

def debited (db : Db) (tx : Transaction) : Db := afterIncr db tx._from (-tx._value)

def credited (db : Db) (tx : Transaction) : Db :=
  if tx._to = [] then db else afterIncr db tx._to tx._value

def Covered (db : Db) (tx : Transaction) : Prop := tx._value.toInt ≤ balanceOf db tx._from

instance (db : Db) (tx : Transaction) : Decidable (Covered db tx) :=
  inferInstanceAs (Decidable (_ ≤ _))

def transferred (db : Db) (tx : Transaction) : Db :=
  if Covered db tx then credited (debited db tx) tx else db

def submitted (config : Config) (cereal : Cereal) (db : Db) (tx : Transaction) : Db :=
  if config.txPoolKey = [] then db
  else afterPush db config.txPoolKey [cereal.transaction.toString tx]

def handled (config : Config) (cereal : Cereal) (db : Db) (tx : Transaction) : Db :=
  if tx._from = [] then db else submitted config cereal (transferred db tx) tx

section Alone
variable (config : Config) (cereal : Cereal) (self : FPService) (throws : Bytes → Bool)
variable (tx : Transaction) (servers : Servers)

theorem textOf_get (db : Db) (key : Bytes) :
    (textOf [] (.reply (exec (.get key) db).1)).1 = true ∧
      atoll (textOf [] (.reply (exec (.get key) db).1)).2 = balanceOf db key := by
  simp only [exec, balanceOf]
  cases db.lookup key with
  | none => exact ⟨rfl, rfl⟩
  | some value => cases value <;> exact ⟨rfl, rfl⟩

/-- The check passes on exactly the covered transactions. -/
theorem decided_get (db : Db) :
    decided config cereal tx (.reply (exec (.get tx._from) db).1) =
      if Covered db tx then debit config cereal tx else submit config cereal tx := by
  obtain ⟨found, balance⟩ := textOf_get db tx._from
  simp only [decided, found, balance, Bool.true_eq_false, ↓reduceIte]
  rfl

theorem run_submit :
    run (serve throws) (submit config cereal tx) servers =
      (.ok true, Function.update servers config.cacheService
        (submitted config cereal (servers config.cacheService) tx)) := by
  simp only [submit, submitted]
  split
  · simp
  · rfl

theorem run_credit :
    run (serve throws) (credit config cereal tx) servers =
      (.ok true, Function.update servers config.cacheService
        (submitted config cereal (credited (servers config.cacheService) tx) tx)) := by
  simp only [credit, credited]
  split
  · exact run_submit config cereal throws tx servers
  · simp [run_submit, serve, afterIncr]

theorem run_debit :
    run (serve throws) (debit config cereal tx) servers =
      (.ok true, Function.update servers config.cacheService
        (submitted config cereal
          (credited (debited (servers config.cacheService) tx) tx) tx)) := by
  simp [debit, run_credit, serve, debited, afterIncr]

/-- One call alone: only the cache service changes, by `handled`. -/
theorem run_handleTransaction (root : self._nodeRole = .root)
    (written : cereal.transaction.toString tx ≠ []) :
    run (serve throws) (handleTransaction config cereal self tx) servers =
      (.ok (decide (tx._from ≠ [])), Function.update servers config.cacheService
        (handled config cereal (servers config.cacheService) tx)) := by
  rw [handleTransaction_root config cereal self root tx written]
  simp only [handled]
  by_cases unknown : tx._from = []
  · simp [unknown]
  · simp only [unknown, ↓reduceIte, run_issue, serve, decided_get, exec_get_db,
      Function.update_eq_self, transferred]
    by_cases covered : Covered (servers config.cacheService) tx
    · simp [run_debit, covered, unknown]
    · simp [run_submit, covered, unknown]

/-- The services after one call. -/
theorem after_handleTransaction (root : self._nodeRole = .root) (lawful : cereal.Lawful) :
    after (serve throws) (handleTransaction config cereal self) servers tx =
      Function.update servers config.cacheService
        (handled config cereal (servers config.cacheService) tx) := by
  rw [after, run_handleTransaction config cereal self throws tx servers root
    (lawful.transaction.nonempty tx)]

theorem after_cache (root : self._nodeRole = .root) (lawful : cereal.Lawful) :
    after (serve throws) (handleTransaction config cereal self) servers tx config.cacheService =
      handled config cereal (servers config.cacheService) tx := by
  rw [after_handleTransaction config cereal self throws tx servers root lawful,
    Function.update_self]

/-- No command of the call is refused or lost. -/
def Succeeds {Result : Type} (program : Calls Result) : Prop :=
  ∀ sent ∈ trace (serve throws) program servers, succeeded sent.2 = true

instance {Result : Type} (program : Calls Result) : Decidable (Succeeds throws servers program) :=
  inferInstanceAs (Decidable (∀ sent ∈ _, _))

/-- No command of a sequence of calls is refused or lost. -/
def AllSucceed {Job Result : Type} (program : Job → Calls Result) (jobs : List Job) : Prop :=
  Throughout (serve throws) program
    (fun servers job => Succeeds throws servers (program job)) servers jobs

theorem succeeds_bind {Result Final : Type} (program : Calls Result)
    (rest : Result → Calls Final) :
    Succeeds throws servers (program >>= rest) ↔
      Succeeds throws servers program ∧
        Succeeds throws (run (serve throws) program servers).2
          (rest (run (serve throws) program servers).1) := by
  simp only [Succeeds, trace_bind, List.forall_mem_append]

theorem succeeded_reply (reply : Reply) : succeeded (.reply reply) = true ↔ reply ≠ .error := by
  cases reply <;> simp [succeeded]

theorem incrBy_succeeds_iff (db : Db) (key : Bytes) (increment : Int64) :
    (exec (.incrBy key increment) db).1 ≠ .error ↔ (incremented db key increment).isSome := by
  rw [exec_incrBy]
  cases incremented db key increment <;> simp

theorem submit_succeeds_iff :
    Succeeds throws servers (submit config cereal tx) ↔
      (config.txPoolKey ≠ [] →
        (exec (.rpush config.txPoolKey [cereal.transaction.toString tx])
          (servers config.cacheService)).1 ≠ .error) := by
  simp only [Succeeds, submit]
  by_cases unnamed : config.txPoolKey = []
  · simp [unnamed]
  · simp [unnamed, serve, succeeded_reply]

theorem credit_succeeds_iff :
    Succeeds throws servers (credit config cereal tx) ↔
      (tx._to ≠ [] →
        (incremented (servers config.cacheService) tx._to tx._value).isSome) ∧
      (config.txPoolKey ≠ [] →
        (exec (.rpush config.txPoolKey [cereal.transaction.toString tx])
          (credited (servers config.cacheService) tx)).1 ≠ .error) := by
  simp only [credit, credited]
  by_cases nowhere : tx._to = []
  · simpa [nowhere] using submit_succeeds_iff config cereal throws tx servers
  · have rest := submit_succeeds_iff config cereal throws tx
      (serve throws (.redis config.cacheService (.incrBy tx._to tx._value)) servers).2
    simp only [Succeeds] at rest ⊢
    simp only [nowhere, ↓reduceIte, trace_issue, List.forall_mem_cons, rest]
    simp [serve, succeeded_reply, incrBy_succeeds_iff, afterIncr, nowhere]

theorem debit_succeeds_iff :
    Succeeds throws servers (debit config cereal tx) ↔
      (incremented (servers config.cacheService) tx._from (-tx._value)).isSome ∧
      (tx._to ≠ [] →
        (incremented (debited (servers config.cacheService) tx) tx._to tx._value).isSome) ∧
      (config.txPoolKey ≠ [] →
        (exec (.rpush config.txPoolKey [cereal.transaction.toString tx])
          (credited (debited (servers config.cacheService) tx) tx)).1 ≠ .error) := by
  have rest := credit_succeeds_iff config cereal throws tx
    (serve throws (.redis config.cacheService (.incrBy tx._from (-tx._value))) servers).2
  simp only [Succeeds] at rest ⊢
  simp only [debit, trace_issue, List.forall_mem_cons, rest]
  simp [serve, succeeded_reply, incrBy_succeeds_iff, debited, afterIncr]

/-- What a call that succeeds says about the database it starts from. -/
structure Accepted (db : Db) : Prop where
  read : (exec (.get tx._from) db).1 ≠ .error
  debit : Covered db tx → (incremented db tx._from (-tx._value)).isSome
  credit : Covered db tx → tx._to ≠ [] →
    (incremented (debited db tx) tx._to tx._value).isSome
  push : config.txPoolKey ≠ [] →
    (exec (.rpush config.txPoolKey [cereal.transaction.toString tx])
      (transferred db tx)).1 ≠ .error

theorem handleTransaction_succeeds_iff (root : self._nodeRole = .root)
    (written : cereal.transaction.toString tx ≠ []) (known : tx._from ≠ []) :
    Succeeds throws servers (handleTransaction config cereal self tx) ↔
      Accepted config cereal tx (servers config.cacheService) := by
  have first : Succeeds throws servers (handleTransaction config cereal self tx) ↔
      (exec (.get tx._from) (servers config.cacheService)).1 ≠ .error ∧
        Succeeds throws servers
          (if Covered (servers config.cacheService) tx then debit config cereal tx
          else submit config cereal tx) := by
    rw [handleTransaction_root config cereal self root tx written]
    simp only [Succeeds, known, ↓reduceIte, trace_issue, List.forall_mem_cons, serve,
      succeeded_reply, exec_get_db, Function.update_eq_self, decided_get]
  rw [first]
  by_cases covered : Covered (servers config.cacheService) tx
  · rw [if_pos covered, debit_succeeds_iff]
    constructor
    · rintro ⟨read, debit, credit, push⟩
      exact ⟨read, fun _ => debit, fun _ => credit, by simpa [transferred, covered] using push⟩
    · intro accepted
      exact ⟨accepted.read, accepted.debit covered, accepted.credit covered,
        by simpa [transferred, covered] using accepted.push⟩
  · rw [if_neg covered, submit_succeeds_iff]
    constructor
    · rintro ⟨read, push⟩
      exact ⟨read, fun passed => absurd passed covered, fun passed => absurd passed covered,
        by simpa [transferred, covered] using push⟩
    · intro accepted
      exact ⟨accepted.read, by simpa [transferred, covered] using accepted.push⟩

theorem accepted_of_succeeds (root : self._nodeRole = .root) (lawful : cereal.Lawful)
    (succeeds : Succeeds throws servers (handleTransaction config cereal self tx))
    (known : tx._from ≠ []) : Accepted config cereal tx (servers config.cacheService) :=
  (handleTransaction_succeeds_iff config cereal self throws tx servers root
    (lawful.transaction.nonempty tx) known).mp succeeds

end Alone

/-! Commands of a call. -/

section Commands
variable (config : Config) (cereal : Cereal) (self : FPService) (throws : Bytes → Bool)
variable (tx : Transaction) (servers : Servers)

/-- The transfer as the two commands it takes. -/
def Applied (sent : List (Effect × Answer)) : Prop :=
  (∃ n, (.redis config.cacheService (.incrBy tx._from (-tx._value)),
    .reply (.integer n)) ∈ sent) ∧
    ∃ n, (.redis config.cacheService (.incrBy tx._to tx._value), .reply (.integer n)) ∈ sent

theorem exec_incrBy_accepted (db : Db) (key : Bytes) (increment : Int64)
    (accepted : (incremented db key increment).isSome) :
    ∃ n, (exec (.incrBy key increment) db).1 = .integer n := by
  obtain ⟨n, found⟩ := Option.isSome_iff_exists.mp accepted
  exact ⟨n, by rw [exec_incrBy, found]⟩

theorem trace_submit (sent : Effect × Answer)
    (member : sent ∈ trace (serve throws) (submit config cereal tx) servers) :
    sent.1 = .redis config.cacheService
      (.rpush config.txPoolKey [cereal.transaction.toString tx]) := by
  simp only [submit] at member
  split at member
  · simp at member
  · simp only [trace_issue, trace_finish, List.mem_singleton] at member
    rw [member]

theorem trace_handleTransaction (root : self._nodeRole = .root)
    (written : cereal.transaction.toString tx ≠ []) (known : tx._from ≠ []) :
    trace (serve throws) (handleTransaction config cereal self tx) servers =
      (.redis config.cacheService (.get tx._from),
        .reply (exec (.get tx._from) (servers config.cacheService)).1) ::
      if Covered (servers config.cacheService) tx then
        trace (serve throws) (debit config cereal tx) servers
      else trace (serve throws) (submit config cereal tx) servers := by
  rw [handleTransaction_root config cereal self root tx written, if_neg known, trace_issue]
  simp only [serve, decided_get, exec_get_db, Function.update_eq_self]
  by_cases covered : Covered (servers config.cacheService) tx
  · rw [if_pos covered, if_pos covered]
  · rw [if_neg covered, if_neg covered]

theorem applied_iff (root : self._nodeRole = .root)
    (written : cereal.transaction.toString tx ≠ []) (known : tx._from ≠ [])
    (accepted : Accepted config cereal tx (servers config.cacheService)) :
    Applied config tx (trace (serve throws) (handleTransaction config cereal self tx) servers) ↔
      Covered (servers config.cacheService) tx ∧ tx._to ≠ [] := by
  rw [trace_handleTransaction config cereal self throws tx servers root written known]
  by_cases covered : Covered (servers config.cacheService) tx
  · rw [if_pos covered]
    obtain ⟨first, debitReply⟩ := exec_incrBy_accepted _ _ _ (accepted.debit covered)
    by_cases nowhere : tx._to = []
    · constructor
      · rintro ⟨_, n, member⟩
        simp only [debit, credit, nowhere, ↓reduceIte, trace_issue, List.mem_cons,
          Prod.mk.injEq, Effect.redis.injEq, reduceCtorEq, and_false, false_and,
          Command.incrBy.injEq, false_or] at member
        rcases member with ⟨⟨-, unknown, -⟩, -⟩ | later
        · exact absurd unknown.symm known
        · cases trace_submit config cereal throws tx _ _ later
      · exact fun both => absurd nowhere both.2
    · obtain ⟨second, creditReply⟩ :=
        exec_incrBy_accepted _ _ _ (accepted.credit covered nowhere)
      simp only [covered, nowhere, ne_eq, not_false_eq_true, and_self, iff_true]
      refine ⟨⟨first, ?_⟩, second, ?_⟩
      · simp [debit, serve, debitReply]
      · have creditReply' : (exec (.incrBy tx._to tx._value)
            (exec (.incrBy tx._from (-tx._value)) (servers config.cacheService)).2).1 =
            .integer second := creditReply
        simp [debit, credit, nowhere, serve, creditReply']
  · rw [if_neg covered]
    constructor
    · rintro ⟨⟨n, member⟩, _⟩
      simp only [List.mem_cons, Prod.mk.injEq, Effect.redis.injEq, reduceCtorEq, and_false,
        false_and, false_or] at member
      cases trace_submit config cereal throws tx _ _ member
    · exact fun both => absurd both.1 covered

end Commands

/-! Balances after a call. -/

theorem debited_balance (db : Db) (tx : Transaction) (account : Bytes) :
    balanceOf (debited db tx) account =
      balanceOf db account +
        if account = tx._from ∧ (incremented db tx._from (-tx._value)).isSome
        then (-tx._value).toInt else 0 :=
  afterIncr_reading db tx._from account (-tx._value)

theorem credited_balance (db : Db) (tx : Transaction) (account : Bytes) :
    balanceOf (credited db tx) account =
      balanceOf db account +
        if tx._to ≠ [] ∧ account = tx._to ∧ (incremented db tx._to tx._value).isSome
        then tx._value.toInt else 0 := by
  simp only [credited]
  by_cases nowhere : tx._to = []
  · simp [nowhere]
  · simpa [nowhere, balanceOf] using afterIncr_reading db tx._to account tx._value

theorem submitted_balance (config : Config) (cereal : Cereal) (db : Db) (tx : Transaction)
    (account : Bytes) :
    balanceOf (submitted config cereal db tx) account = balanceOf db account := by
  simp only [submitted]
  split
  · rfl
  · exact afterPush_reading db config.txPoolKey account _

/-- A call that succeeds moves the value, or moves nothing. -/
theorem handled_balance (config : Config) (cereal : Cereal) (db : Db) (tx : Transaction)
    (accepted : tx._from ≠ [] → Accepted config cereal tx db) (account : Bytes) :
    balanceOf (handled config cereal db tx) account =
      balanceOf db account +
        if tx._from ≠ [] ∧ Covered db tx then
          (if account = tx._from then (-tx._value).toInt else 0) +
            (if tx._to ≠ [] ∧ account = tx._to then tx._value.toInt else 0)
        else 0 := by
  simp only [handled]
  by_cases unknown : tx._from = []
  · simp [unknown]
  · rw [if_neg unknown, submitted_balance]
    simp only [transferred]
    by_cases covered : Covered db tx
    · have debit := (accepted unknown).debit covered
      have credit := (accepted unknown).credit covered
      rw [if_pos covered, credited_balance, debited_balance]
      by_cases nowhere : tx._to = []
      · simp [unknown, covered, debit, nowhere]
      · simp [unknown, covered, debit, credit nowhere, nowhere, add_assoc]
    · simp [covered]

/-! Accounts and states that runs on fixed inputs start from. -/

def alice : Bytes := ascii "alice"

def bob : Bytes := ascii "bob"

/-- Every service holds one record. -/
def holding (key text : Bytes) : Servers := fun _ => (∅ : Db).insert key (.string text)

/-- Every service holds ten for one account. -/
def funded (account : Bytes) : Servers := holding account (ascii "10")

end FPayNode.RootTransaction
