import FPayNode.CerealJson
import FPayNode.TransferStages
import Mathlib.Algebra.Order.BigOperators.Group.Finset

/-!
Any number of root workers that handle transactions at the same time over one
cache, interleaved command by command. The balance check and the debit are
separate commands of a call, and so are the debit and the credit: what other
workers do in between is what the two results of this module are about.
-/

namespace FPayNode.ConcurrentTransfers

open CommandProgram WorkerPool DecimalText RedisServer RedisCache Messages NodeService
open RootTransaction TransferStages

section Overdraft
variable {Worker Job Result : Type} [Fintype Worker] [DecidableEq Worker]
variable (config : Config) (cereal : Cereal) (txOf : Job → Transaction)
variable (throws : Bytes → Bool)

def pendingOn (account : Bytes) (pool : Pool Worker Job Effect Answer Result Servers) : Int :=
  ∑ worker, checkedOn txOf account (pool.running worker)

/-- A balance check that passes also covers the payments from that account
which other workers have checked and not debited. -/
def CoversPending (account : Bytes) (pool : Pool Worker Job Effect Answer Result Servers) :
    Choice Worker Job → Prop
  | .start _ _ => True
  | .advance worker => ∀ call ∈ pool.running worker, call.done = [] →
      (txOf call.job)._from = account →
      Covered (pool.shared config.cacheService) (txOf call.job) →
      pendingOn txOf account pool + (txOf call.job)._value.toInt ≤
        balanceOf (pool.shared config.cacheService) account

instance (account : Bytes) (pool : Pool Worker Job Effect Answer Result Servers) :
    ∀ choice, Decidable (CoversPending config txOf account pool choice)
  | .start _ _ => .isTrue trivial
  | .advance worker => inferInstanceAs (Decidable (∀ call ∈ pool.running worker, _))

/-- Checked payments of an account are covered. -/
def Reserved (account : Bytes) (shared : Servers) (phases : Worker → Option (Job × Stage))
    (_ : List (Event Worker Job Effect Answer Result)) : Prop :=
  ∑ worker, owedOn txOf account (phases worker) ≤ balanceOf (shared config.cacheService) account

variable (positive : ∀ job, 0 < (txOf job)._value.toInt)
include positive

omit [Fintype Worker] [DecidableEq Worker] in
theorem owedOn_nonneg (account : Bytes) (phase : Option (Job × Stage)) :
    0 ≤ owedOn txOf account phase := by
  cases phase with
  | none => exact le_rfl
  | some phase =>
      obtain ⟨job, stage⟩ := phase
      by_cases passed : stage = .passed
      · subst passed
        have value := positive job
        rw [owedOn_passed]
        split <;> omega
      · rw [owedOn_other txOf account job stage passed]

omit positive in
/-- A command keeps the reserve when it takes from the account no more than
its worker had reserved. -/
theorem reserved_move (account : Bytes) (shared : Servers)
    (phases : Worker → Option (Job × Stage))
    (history later : List (Event Worker Job Effect Answer Result)) (worker : Worker) (db : Db)
    (phase : Option (Job × Stage))
    (taken : balanceOf (shared config.cacheService) account + owedOn txOf account phase ≤
      balanceOf db account + owedOn txOf account (phases worker))
    (before : Reserved config txOf account shared phases history) :
    Reserved config txOf account (Function.update shared config.cacheService db)
      (Function.update phases worker phase) later := by
  simp only [Reserved, Totals.sum_update, Function.update_self] at before ⊢
  omega

theorem reserved_keeps (account : Bytes) :
    (transfers Worker config cereal txOf).Keeps (serve throws)
      (Closed : Job × Stage → Result → Prop) (CoversPending config txOf account)
      (Reserved config txOf account) where
  begins pool worker job absent _ before := by
    have entry : owedOn txOf account
        (some ((transfers Worker config cereal txOf).entry worker job)) = 0 := rfl
    simp only [Reserved, Totals.sum_update, absent, owedOn_none, entry] at before ⊢
    omega
  issues pool worker call command next found rest allowed meets before := by
    have value := positive call.job
    have phase := (transfers Worker config cereal txOf).phases_running pool worker call found
    rcases issue_cases config cereal txOf worker call command allowed with
      ⟨here, done, rfl⟩ | ⟨here, rfl⟩ | ⟨here, rfl⟩ | ⟨here, rfl⟩
    · -- Only a check that passes reserves anything, and the schedule covers it.
      have covers := meets call found done
      have pending : pendingOn txOf account pool =
          ∑ worker, owedOn txOf account
            ((transfers Worker config cereal txOf).phases pool worker) :=
        Finset.sum_congr rfl fun worker _ => checkedOn_eq config cereal txOf account pool worker
      obtain ⟨read, balance⟩ :=
        textOf_get (pool.shared config.cacheService) (txOf call.job)._from
      simp only [Reserved, Totals.sum_update] at before ⊢
      rw [pending] at covers
      rw [phase, here, owedOn_other txOf account call.job .checking (by simp)]
      simp only [serve, Function.update_self, exec_get_db, transfers_next, nextStage, Passes,
        read, balance, true_and, ↓reduceIte]
      by_cases covered : (txOf call.job)._value.toInt ≤
          balanceOf (pool.shared config.cacheService) (txOf call.job)._from
      · rw [if_pos covered, owedOn_passed]
        by_cases same : (txOf call.job)._from = account
        · have bound := covers same covered
          rw [if_pos same]
          omega
        · rw [if_neg same]
          omega
      · rw [if_neg covered, owedOn_other txOf account call.job .submitting (by simp)]
        omega
    · apply reserved_move config txOf account _ _ pool.history _ worker _ _ _ before
      have change := afterIncr_reading (pool.shared config.cacheService) (txOf call.job)._from
        account (-(txOf call.job)._value)
      have negated : (-(txOf call.job)._value).toInt = -(txOf call.job)._value.toInt := by
        apply toInt_neg
        intro least
        rw [least] at value
        exact absurd value (by decide)
      have stage : ∀ answer, nextStage (txOf call.job) answer .passed ≠ .passed := by
        intro answer
        simp only [nextStage]
        split <;> simp
      rw [phase, here, transfers_next, owedOn_other txOf account _ _ (stage _), owedOn_passed]
      simp only [balanceOf, afterIncr, negated] at change ⊢
      rw [change]
      by_cases same : (txOf call.job)._from = account
      · simp only [same, ↓reduceIte, true_and]
        split <;> omega
      · simp only [same, Ne.symm same, ↓reduceIte, false_and]
        omega
    · apply reserved_move config txOf account _ _ pool.history _ worker _ _ _ before
      have change := afterIncr_reading (pool.shared config.cacheService) (txOf call.job)._to
        account (txOf call.job)._value
      rw [phase, here, transfers_next, owedOn_other txOf account _ .debited (by simp),
        owedOn_other txOf account _ _ (by simp [nextStage])]
      simp only [balanceOf, afterIncr] at change ⊢
      rw [change]
      split <;> omega
    · apply reserved_move config txOf account _ _ pool.history _ worker _ _ _ before
      have change := afterPush_reading (pool.shared config.cacheService) config.txPoolKey
        account [cereal.transaction.toString (txOf call.job)]
      rw [phase, here, transfers_next, owedOn_other txOf account _ .submitting (by simp),
        owedOn_other txOf account _ _ (by simp [nextStage])]
      simp only [balanceOf, afterPush] at change ⊢
      rw [change]
  returns shared phases history worker job phase result found _ before := by
    have owed := owedOn_nonneg txOf positive account (phases worker)
    simp only [Reserved, Totals.sum_update, owedOn_none] at before ⊢
    omega

end Overdraft

/-- A transaction with a strictly positive value. -/
structure Payment where
  tx : Transaction
  positive : 0 < tx._value.toInt

/-- In every interleaving in which each check that passes covers what is
pending on the account, the account never becomes negative. -/
theorem never_overdrawn {Worker : Type} [Fintype Worker] [DecidableEq Worker]
    (config : Config) (cereal : Cereal) (self : Worker → FPService) (throws : Bytes → Bool)
    (root : ∀ worker, (self worker)._nodeRole = .root) (lawful : cereal.Lawful)
    (start : Servers) (account : Bytes)
    (funds : 0 ≤ balanceOf (start config.cacheService) account)
    (schedule : List (Choice Worker Payment))
    (covers : Along (serve throws) (rootWorkers config cereal self Payment.tx)
      (CoversPending config Payment.tx account) (idle start) schedule) :
    0 ≤ balanceOf ((runPool (serve throws) (rootWorkers config cereal self Payment.tx)
      (idle start) schedule).shared config.cacheService) account := by
  have positive : ∀ job : Payment, 0 < job.tx._value.toInt := fun job => job.positive
  obtain ⟨-, reserved⟩ := Discipline.run_keeps
    (reserved_keeps config cereal Payment.tx throws positive account)
    (fun _ worker job _ => handleTransaction_follows config cereal Payment.tx (self worker)
      (root worker) lawful job)
    (idle start) schedule covers (Discipline.idle_tracked start)
    (by simpa [Reserved, Discipline.idle_phases] using funds)
  have owed : 0 ≤ ∑ worker, owedOn Payment.tx account
      ((transfers Worker config cereal Payment.tx).phases
        (runPool (serve throws) (rootWorkers config cereal self Payment.tx)
          (idle start) schedule) worker) :=
    Finset.sum_nonneg fun worker _ => owedOn_nonneg Payment.tx positive account _
  exact owed.trans reserved

def payment (value : Int64) (positive : 0 < value.toInt) : Payment :=
  ⟨⟨ascii "t1", alice, bob, value, 0⟩, positive⟩

/-- Both workers check before either debits. -/
def checksFirst (first second : Payment) : List (Choice Bool Payment) :=
  [.start false first, .start true second, .advance false, .advance true, .advance false,
    .advance true]

theorem never_overdrawn_checksFirst :
    0 ≤ balanceOf ((runPool (serve fun _ => false)
      (rootWorkers rootServerConf CerealJson.cerealJson (fun _ : Bool => rootService)
        Payment.tx)
      (idle (funded alice)) (checksFirst (payment 4 (by decide)) (payment 6 (by decide)))).shared
        rootServerConf.cacheService) alice :=
  never_overdrawn rootServerConf CerealJson.cerealJson (fun _ => rootService) (fun _ => false)
    (fun _ => rfl) CerealJson.cerealJson_lawful (funded alice) alice (by decide +kernel)
    (checksFirst (payment 4 (by decide)) (payment 6 (by decide))) (by decide +kernel)

/-- Both checks read ten, and both payments of ten are debited. -/
theorem both_checks_pass_overdrawn :
    0 ≤ balanceOf (funded alice rootServerConf.cacheService) alice ∧
    balanceOf ((runPool (serve fun _ => false)
      (rootWorkers rootServerConf CerealJson.cerealJson (fun _ : Bool => rootService)
        Payment.tx)
      (idle (funded alice)) (checksFirst (payment 10 (by decide)) (payment 10 (by decide)))).shared
        rootServerConf.cacheService) alice = -10 := by
  decide +kernel

/-! The sum of all balances. -/

/-- A transaction between two named accounts. The least value is left out: it
is its own negation. -/
structure Transfer where
  tx : Transaction
  sender : tx._from ≠ []
  receiver : tx._to ≠ []
  exact : tx._value ≠ Int64.minValue

section Conservation
variable {Worker : Type}
variable (config : Config) (cereal : Cereal) (throws : Bytes → Bool)

abbrev TransferEvent (Worker : Type) := Event Worker Transfer Effect Answer (Except Thrown Bool)

/-- The credit that an event of the history made to an account. -/
def creditOf (account : Bytes) : TransferEvent Worker → Int
  | .executed _ job _ command _ =>
      if command = .redis config.cacheService (.incrBy job.tx._to job.tx._value) ∧
        job.tx._to = account then job.tx._value.toInt else 0
  | .returned _ _ _ => 0

def debitOf (account : Bytes) : TransferEvent Worker → Int
  | .executed _ job _ command _ =>
      if command = .redis config.cacheService (.incrBy job.tx._from (-job.tx._value)) ∧
        job.tx._from = account then job.tx._value.toInt else 0
  | .returned _ _ _ => 0

def creditsTo (account : Bytes) (history : List (TransferEvent Worker)) : Int :=
  (history.map (creditOf config account)).sum

def debitsFrom (account : Bytes) (history : List (TransferEvent Worker)) : Int :=
  (history.map (debitOf config account)).sum

theorem creditsTo_append (account : Bytes) (history : List (TransferEvent Worker))
    (event : TransferEvent Worker) :
    creditsTo config account (history ++ [event]) =
      creditsTo config account history + creditOf config account event := by
  simp [creditsTo]

theorem debitsFrom_append (account : Bytes) (history : List (TransferEvent Worker))
    (event : TransferEvent Worker) :
    debitsFrom config account (history ++ [event]) =
      debitsFrom config account history + debitOf config account event := by
  simp [debitsFrom]

/-- A value and its negation differ, except for zero. -/
theorem own_negation (value : Int64) (least : value ≠ Int64.minValue) (same : value = -value) :
    value.toInt = 0 := by
  have negated := toInt_neg value least
  rw [← same] at negated
  omega

/-- What a debit and a credit add to the two sides of the account. -/
theorem debit_event (worker : Worker) (job : Transfer) (before : List (Effect × Answer))
    (answer : Answer) (account : Bytes) :
    creditOf config account (.executed worker job before
        (.redis config.cacheService (.incrBy job.tx._from (-job.tx._value))) answer) = 0 ∧
      debitOf config account (.executed worker job before
        (.redis config.cacheService (.incrBy job.tx._from (-job.tx._value))) answer) =
        if job.tx._from = account then job.tx._value.toInt else 0 := by
  constructor
  · simp only [creditOf, Effect.redis.injEq, Command.incrBy.injEq, true_and]
    split
    · next both => exact own_negation _ job.exact both.1.2.symm
    · rfl
  · simp [debitOf]

theorem credit_event (worker : Worker) (job : Transfer) (before : List (Effect × Answer))
    (answer : Answer) (account : Bytes) :
    creditOf config account (.executed worker job before
        (.redis config.cacheService (.incrBy job.tx._to job.tx._value)) answer) =
        (if job.tx._to = account then job.tx._value.toInt else 0) ∧
      debitOf config account (.executed worker job before
        (.redis config.cacheService (.incrBy job.tx._to job.tx._value)) answer) = 0 := by
  constructor
  · simp [creditOf]
  · simp only [debitOf, Effect.redis.injEq, Command.incrBy.injEq, true_and]
    split
    · next both => exact own_negation _ job.exact both.1.2
    · rfl

variable [Fintype Worker]

/-- Every balance is explained by the history, and the sum by what is in
flight. -/
def Balanced (start shared : Servers) (phases : Worker → Option (Transfer × Stage))
    (history : List (TransferEvent Worker)) : Prop :=
  (∀ account, balanceOf (shared config.cacheService) account =
    balanceOf (start config.cacheService) account + creditsTo config account history -
      debitsFrom config account history) ∧
  worth (shared config.cacheService) + ∑ worker, flying Transfer.tx (phases worker) =
    worth (start config.cacheService)

variable [DecidableEq Worker]

/-- An event keeps the account when it changes every balance by what it says,
and the sum by what it puts into flight. -/
theorem balanced_move (start shared : Servers) (phases : Worker → Option (Transfer × Stage))
    (history : List (TransferEvent Worker)) (worker : Worker) (db : Db)
    (phase : Option (Transfer × Stage)) (event : TransferEvent Worker)
    (moved : ∀ account, balanceOf db account =
      balanceOf (shared config.cacheService) account + creditOf config account event -
        debitOf config account event)
    (sum : worth db + flying Transfer.tx phase =
      worth (shared config.cacheService) + flying Transfer.tx (phases worker))
    (before : Balanced config start shared phases history) :
    Balanced config start (Function.update shared config.cacheService db)
      (Function.update phases worker phase) (history ++ [event]) := by
  obtain ⟨balances, total⟩ := before
  simp only [Balanced, Function.update_self, Totals.sum_update, creditsTo_append,
    debitsFrom_append]
  constructor
  · intro account
    rw [moved account, balances account]
    omega
  · omega

theorem incr_balance (db : Db) (key : Bytes) (increment : Int64)
    (accepted : succeeded (.reply (exec (.incrBy key increment) db).1) = true) :
    worth (exec (.incrBy key increment) db).2 = worth db + increment.toInt ∧
      ∀ account, balanceOf (exec (.incrBy key increment) db).2 account =
        balanceOf db account + if key = account then increment.toInt else 0 := by
  have taken : (incremented db key increment).isSome :=
    (incrBy_succeeds_iff _ _ _).mp ((succeeded_reply _).mp accepted)
  constructor
  · have sum := afterIncr_worth db key increment
    rwa [if_pos taken] at sum
  · intro account
    have change := afterIncr_reading db key account increment
    simp only [taken, and_true] at change
    by_cases same : key = account
    · rw [if_pos same.symm] at change
      rw [if_pos same]
      exact change
    · rw [if_neg (Ne.symm same)] at change
      rw [if_neg same]
      exact change

theorem balanced_keeps (start : Servers) :
    (transfers Worker config cereal Transfer.tx).Keeps (serve throws)
      (Closed : Transfer × Stage → Except Thrown Bool → Prop) (Answering (serve throws) succeeded)
      (Balanced config start) where
  begins pool worker job absent _ before := by
    have entry : flying Transfer.tx
        (some ((transfers Worker config cereal Transfer.tx).entry worker job)) = 0 := rfl
    simp only [Balanced, Totals.sum_update, absent, flying_none, entry] at before ⊢
    exact ⟨before.1, by omega⟩
  issues pool worker call command next found rest allowed meets before := by
    have phase := (transfers Worker config cereal Transfer.tx).phases_running pool worker call found
    have accepted := meets command (nextCommand_eq pool worker call command next found rest)
    rcases issue_cases config cereal Transfer.tx worker call command allowed with
      ⟨here, done, rfl⟩ | ⟨here, rfl⟩ | ⟨here, rfl⟩ | ⟨here, rfl⟩
    · apply balanced_move config start _ _ _ worker _ _ _ _ _ before
      · intro account
        simp [exec_get_db, creditOf, debitOf]
      · have stage : ∀ answer, nextStage call.job.tx answer .checking ≠ .debited := by
          intro answer
          simp only [nextStage]
          split
          · simp
          · split <;> simp
        rw [phase, here, transfers_next, flying_other Transfer.tx _ .checking (by simp),
          flying_other Transfer.tx _ _ (stage _), exec_get_db]
    · obtain ⟨sum, balances⟩ := incr_balance _ _ _ accepted
      have negated := toInt_neg call.job.tx._value call.job.exact
      apply balanced_move config start _ _ _ worker _ _ _ _ _ before
      · intro account
        rw [balances account, negated, (debit_event config worker call.job call.done _ account).1,
          (debit_event config worker call.job call.done _ account).2]
        split <;> omega
      · have stage : ∀ answer, nextStage call.job.tx answer .passed = .debited := by
          intro answer
          simp [nextStage, call.job.receiver]
        rw [phase, here, transfers_next, flying_other Transfer.tx _ .passed (by simp), stage,
          flying_debited, sum, negated]
        dsimp only
        omega
    · obtain ⟨sum, balances⟩ := incr_balance _ _ _ accepted
      apply balanced_move config start _ _ _ worker _ _ _ _ _ before
      · intro account
        rw [balances account, (credit_event config worker call.job call.done _ account).1,
          (credit_event config worker call.job call.done _ account).2]
        omega
      · rw [phase, here, transfers_next, flying_debited,
          flying_other Transfer.tx _ _ (by simp [nextStage]), sum]
        omega
    · have change := afterPush_reading (pool.shared config.cacheService) config.txPoolKey
      apply balanced_move config start _ _ _ worker _ _ _ _ _ before
      · intro account
        have same := change account [cereal.transaction.toString call.job.tx]
        simpa [creditOf, debitOf, balanceOf, afterPush] using same
      · have sum := worth_same _ _ fun key =>
          change key [cereal.transaction.toString call.job.tx]
        rw [phase, here, transfers_next, flying_other Transfer.tx _ .submitting (by simp),
          flying_other Transfer.tx _ _ (by simp [nextStage])]
        simpa [afterPush] using sum
  returns shared phases history worker job phase result found closed before := by
    have landed : flying Transfer.tx (some phase) = 0 :=
      flying_other Transfer.tx phase.1 phase.2 closed.2
    have moved := balanced_move config start shared phases history worker
      (shared config.cacheService) none (.returned worker job result)
      (by simp [creditOf, debitOf]) (by rw [found, landed, flying_none]) before
    simpa using moved

end Conservation

/-- In every state of every interleaving without a refused command, balances
are their initial values with the credits and debits made so far, and only
what is between a debit and its credit is missing from the sum. -/
theorem concurrent_transfers_balance {Worker : Type} [Fintype Worker] [DecidableEq Worker]
    (config : Config) (cereal : Cereal) (self : Worker → FPService) (throws : Bytes → Bool)
    (root : ∀ worker, (self worker)._nodeRole = .root) (lawful : cereal.Lawful)
    (start : Servers) (schedule : List (Choice Worker Transfer))
    (accepting : Along (serve throws) (rootWorkers config cereal self Transfer.tx)
      (Answering (serve throws) succeeded) (idle start) schedule) :
    let pool := runPool (serve throws) (rootWorkers config cereal self Transfer.tx)
      (idle start) schedule
    (∀ account, balanceOf (pool.shared config.cacheService) account =
      balanceOf (start config.cacheService) account +
        creditsTo config account pool.history - debitsFrom config account pool.history) ∧
    worth (pool.shared config.cacheService) +
        ∑ worker, inFlight Transfer.tx (pool.running worker) =
      worth (start config.cacheService) ∧
    ((∀ worker, pool.running worker = none) →
      worth (pool.shared config.cacheService) = worth (start config.cacheService)) := by
  intro pool
  have balanced : Balanced config start pool.shared
      ((transfers Worker config cereal Transfer.tx).phases pool) pool.history :=
    (Discipline.run_keeps (balanced_keeps config cereal throws start)
      (fun _ worker job _ => handleTransaction_follows config cereal Transfer.tx (self worker)
        (root worker) lawful job)
      (idle start) schedule accepting (Discipline.idle_tracked start)
      (by simp [Balanced, Discipline.idle_phases, creditsTo, debitsFrom])).2
  have sum : worth (pool.shared config.cacheService) +
      ∑ worker, inFlight Transfer.tx (pool.running worker) =
      worth (start config.cacheService) := by
    rw [← balanced.2]
    congr 1
    exact Finset.sum_congr rfl fun worker _ =>
      inFlight_eq config cereal Transfer.tx (fun job => job.receiver) pool worker
  refine ⟨balanced.1, sum, fun quiet => ?_⟩
  rw [← sum]
  simp [quiet, inFlight]

def transfer (source target : Bytes) (value : Int64) (sender : source ≠ [])
    (receiver : target ≠ []) (exact : value ≠ Int64.minValue) : Transfer :=
  ⟨⟨ascii "t1", source, target, value, 0⟩, sender, receiver, exact⟩

theorem concurrent_transfers_balance_crossing :
    let pool := runPool (serve fun _ => false)
      (rootWorkers rootServerConf CerealJson.cerealJson (fun _ : Bool => rootService)
        Transfer.tx) (idle (funded alice))
      [.start false (transfer alice bob 4 (by decide) (by decide) (by decide)),
        .start true (transfer bob alice (-3) (by decide) (by decide) (by decide)),
        .advance false, .advance true, .advance false, .advance true]
    (∀ account, balanceOf (pool.shared rootServerConf.cacheService) account =
      balanceOf (funded alice rootServerConf.cacheService) account +
        creditsTo rootServerConf account pool.history -
          debitsFrom rootServerConf account pool.history) ∧
    worth (pool.shared rootServerConf.cacheService) +
        ∑ worker, inFlight Transfer.tx (pool.running worker) =
      worth (funded alice rootServerConf.cacheService) ∧
    ((∀ worker, pool.running worker = none) →
      worth (pool.shared rootServerConf.cacheService) =
        worth (funded alice rootServerConf.cacheService)) :=
  concurrent_transfers_balance rootServerConf CerealJson.cerealJson (fun _ => rootService)
    (fun _ => false) (fun _ => rfl) CerealJson.cerealJson_lawful (funded alice) _
    (by decide +kernel)

end FPayNode.ConcurrentTransfers
