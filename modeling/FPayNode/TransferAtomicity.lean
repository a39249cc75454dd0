import FPayNode.CerealJson
import FPayNode.RootTransaction

/-!
The transfer of a transaction when commands can fail. The debit and the
credit are separate commands and neither answer is looked at: each takes
effect or not, for reasons of its own. A command is lost by its position in
the call, or refused by the record it meets.
-/

namespace FPayNode.TransferAtomicity

open CommandProgram DecimalText RedisServer RedisCache Messages NodeService RootTransaction

/-- The services behind a connection that loses the `n`-th command of a call. -/
def lossy (throws : Bytes → Bool) (lost : Nat → Bool) :
    Machine Effect Answer (Servers × Nat) :=
  flaky (serve throws) .lost lost

/-- The command at one place of a call was carried out. -/
def TookEffect (sent : List (Effect × Answer)) (place : Nat) (effect : Effect) : Prop :=
  ∃ n, sent[place]? = some (effect, .reply (.integer n))

section Conditions
variable (lost : Nat → Bool) (db : Db) (tx : Transaction)

/-- The `INCRBY` at this place reaches the server and is not refused. -/
def Effective (place : Nat) (key : Bytes) (increment : Int64) : Prop :=
  lost place = false ∧ (incremented db key increment).isSome

instance (place : Nat) (key : Bytes) (increment : Int64) :
    Decidable (Effective lost db place key increment) := inferInstanceAs (Decidable (_ ∧ _))

/-- The transfer is attempted. -/
def Attempted : Prop := lost 0 = false ∧ tx._from ≠ [] ∧ Covered db tx

def DebitEffective : Prop := Effective lost db 1 tx._from (-tx._value)

/-- On the record before the call: a credit of what the same account was just
debited is not refused. -/
def CreditEffective : Prop :=
  lost 2 = false ∧ tx._to ≠ [] ∧
    ((tx._to = tx._from ∧ DebitEffective lost db tx) ∨
      (incremented db tx._to tx._value).isSome)

/-- Both commands take effect or neither does; the least amount, which is its
own negation, is never returned. -/
def Conserving : Prop :=
  Attempted lost db tx →
    (¬ DebitEffective lost db tx ∧ ¬ CreditEffective lost db tx) ∨
      (DebitEffective lost db tx ∧ CreditEffective lost db tx ∧ tx._value ≠ Int64.minValue)

end Conditions

section Parts
variable (config : Config) (cereal : Cereal) (throws : Bytes → Bool) (lost : Nat → Bool)
variable (tx : Transaction) (state : Servers × Nat)

/-- One `INCRBY` over a lossy connection, with its answer. -/
theorem lossy_incrBy (service key : Bytes) (increment : Int64) :
    ((lossy throws lost (.redis service (.incrBy key increment)) state).2.1 service =
        if lost state.2 then state.1 service else afterIncr (state.1 service) key increment) ∧
      (lossy throws lost (.redis service (.incrBy key increment)) state).2.2 = state.2 + 1 ∧
      ((∃ n, (lossy throws lost (.redis service (.incrBy key increment)) state).1 =
          .reply (.integer n)) ↔ Effective lost (state.1 service) state.2 key increment) := by
  simp only [lossy, flaky, Effective]
  cases lost state.2 with
  | true => simp
  | false =>
      simp only [Bool.false_eq_true, ↓reduceIte, serve, Function.update_self, afterIncr,
        Answer.reply.injEq, true_and]
      rw [exec_incrBy]
      cases incremented (state.1 service) key increment <;> simp

theorem submit_worth :
    worth ((run (lossy throws lost) (submit config cereal tx) state).2.1 config.cacheService) =
      worth (state.1 config.cacheService) := by
  apply worth_same
  intro account
  simp only [submit]
  split
  · rfl
  · simp only [run_issue, run_finish, lossy, flaky]
    split
    · rfl
    · simpa [serve, afterPush] using
        afterPush_reading (state.1 config.cacheService) config.txPoolKey account
          [cereal.transaction.toString tx]

theorem submit_places (place : Nat) (key : Bytes) (increment : Int64) :
    ¬ TookEffect (trace (lossy throws lost) (submit config cereal tx) state) place
      (.redis config.cacheService (.incrBy key increment)) := by
  rintro ⟨n, found⟩
  have member := List.mem_of_getElem? found
  simp only [submit] at member
  split at member <;> simp at member

theorem credit_worth :
    worth ((run (lossy throws lost) (credit config cereal tx) state).2.1 config.cacheService) =
      worth (state.1 config.cacheService) +
        if tx._to ≠ [] ∧ Effective lost (state.1 config.cacheService) state.2 tx._to tx._value
        then tx._value.toInt else 0 := by
  simp only [credit]
  by_cases nowhere : tx._to = []
  · simp [nowhere, submit_worth]
  · obtain ⟨next, -, -⟩ :=
      lossy_incrBy throws lost state config.cacheService tx._to tx._value
    simp only [nowhere, ↓reduceIte, run_issue, submit_worth, next, Effective]
    by_cases missing : lost state.2 = true
    · simp [missing]
    · simp [missing, nowhere, afterIncr_worth]

theorem credit_places :
    TookEffect (trace (lossy throws lost) (credit config cereal tx) state) 0
      (.redis config.cacheService (.incrBy tx._to tx._value)) ↔
    tx._to ≠ [] ∧ Effective lost (state.1 config.cacheService) state.2 tx._to tx._value := by
  simp only [credit]
  by_cases nowhere : tx._to = []
  · simp [nowhere, submit_places config cereal throws lost tx state 0]
  · obtain ⟨-, -, took⟩ :=
      lossy_incrBy throws lost state config.cacheService tx._to tx._value
    simp [TookEffect, nowhere, took]

/-- The cache after the debit was tried. -/
def tried (db : Db) (place : Nat) : Db := if lost place then db else debited db tx

theorem debit_parts :
    worth ((run (lossy throws lost) (debit config cereal tx) state).2.1 config.cacheService) =
      worth (state.1 config.cacheService) +
        (if Effective lost (state.1 config.cacheService) state.2 tx._from (-tx._value)
          then (-tx._value).toInt else 0) +
        (if tx._to ≠ [] ∧ Effective lost (tried lost tx (state.1 config.cacheService) state.2)
            (state.2 + 1) tx._to tx._value
          then tx._value.toInt else 0) ∧
    (TookEffect (trace (lossy throws lost) (debit config cereal tx) state) 0
        (.redis config.cacheService (.incrBy tx._from (-tx._value))) ↔
      Effective lost (state.1 config.cacheService) state.2 tx._from (-tx._value)) ∧
    (TookEffect (trace (lossy throws lost) (debit config cereal tx) state) 1
        (.redis config.cacheService (.incrBy tx._to tx._value)) ↔
      tx._to ≠ [] ∧ Effective lost (tried lost tx (state.1 config.cacheService) state.2)
        (state.2 + 1) tx._to tx._value) := by
  obtain ⟨next, count, took⟩ :=
    lossy_incrBy throws lost state config.cacheService tx._from (-tx._value)
  have credited := credit_worth config cereal throws lost tx
    (lossy throws lost (.redis config.cacheService (.incrBy tx._from (-tx._value))) state).2
  have places := credit_places config cereal throws lost tx
    (lossy throws lost (.redis config.cacheService (.incrBy tx._from (-tx._value))) state).2
  have db : (if lost state.2 = true then state.1 config.cacheService
      else afterIncr (state.1 config.cacheService) tx._from (-tx._value)) =
      tried lost tx (state.1 config.cacheService) state.2 := rfl
  rw [next, count, db] at credited places
  refine ⟨?_, ?_, ?_⟩
  · simp only [debit, run_issue, credited]
    congr 1
    simp only [tried, Effective]
    by_cases missing : lost state.2 = true
    · simp [missing]
    · simp [missing, debited, afterIncr_worth]
  · simp [TookEffect, debit, took]
  · simpa [TookEffect, debit] using places

end Parts

/-- Two amounts that cancel change a sum only when one of them is missing. -/
theorem moves_cancel_iff (first second exact : Prop) [Decidable first] [Decidable second]
    (sum out back : Int) (cancel : out + back = 0 ↔ exact) :
    (sum + (if first then out else 0) + (if second then back else 0) = sum ∧
      (first ↔ second)) ↔ (¬ first ∧ ¬ second) ∨ (first ∧ second ∧ exact) := by
  by_cases one : first
  · by_cases two : second
    · simp only [one, two, ↓reduceIte, and_true, not_true_eq_false, false_or, true_and,
        and_self, ← cancel]
      omega
    · simp [one, two]
  · by_cases two : second
    · simp [one, two]
    · simp [one, two]

section Whole
variable (config : Config) (cereal : Cereal) (self : FPService)
variable (throws : Bytes → Bool) (lost : Nat → Bool) (tx : Transaction) (servers : Servers)

/-- The sum of all balances is kept, and the two commands of the transfer,
second and third of the call, take effect together or not at all. -/
def Atomic : Prop :=
  worth ((run (lossy throws lost) (handleTransaction config cereal self tx)
      (servers, 0)).2.1 config.cacheService) = worth (servers config.cacheService) ∧
    (TookEffect (trace (lossy throws lost) (handleTransaction config cereal self tx)
        (servers, 0)) 1 (.redis config.cacheService (.incrBy tx._from (-tx._value))) ↔
      TookEffect (trace (lossy throws lost) (handleTransaction config cereal self tx)
        (servers, 0)) 2 (.redis config.cacheService (.incrBy tx._to tx._value)))

variable (root : self._nodeRole = .root) (written : cereal.transaction.toString tx ≠ [])
include root written

theorem unattempted_atomic (idle : ¬ Attempted lost (servers config.cacheService) tx) :
    Atomic config cereal self throws lost tx servers := by
  simp only [Atomic]
  rw [handleTransaction_root config cereal self root tx written]
  by_cases known : tx._from = []
  · simp [known, TookEffect]
  · rw [if_neg known, run_issue, trace_issue]
    by_cases missing : lost 0 = true
    · simp [lossy, flaky, missing, decided, textOf, TookEffect]
    · have uncovered : ¬ Covered (servers config.cacheService) tx :=
        fun covered => idle ⟨by simpa using missing, known, covered⟩
      have next : lossy throws lost (.redis config.cacheService (.get tx._from)) (servers, 0) =
          (.reply (exec (.get tx._from) (servers config.cacheService)).1, servers, 1) := by
        simp [lossy, flaky, missing, serve, exec_get_db]
      rw [next]
      simp only [decided_get, uncovered, ↓reduceIte, submit_worth, true_and]
      have second := submit_places config cereal throws lost tx (servers, 1) 0
      have third := submit_places config cereal throws lost tx (servers, 1) 1
      exact iff_of_false (fun took => second _ _ took) fun took => third _ _ took

theorem attempted_atomic_iff (attempted : Attempted lost (servers config.cacheService) tx) :
    Atomic config cereal self throws lost tx servers ↔
      (¬ DebitEffective lost (servers config.cacheService) tx ∧
        ¬ (tx._to ≠ [] ∧ Effective lost (tried lost tx (servers config.cacheService) 1) 2
          tx._to tx._value)) ∨
      (DebitEffective lost (servers config.cacheService) tx ∧
        (tx._to ≠ [] ∧ Effective lost (tried lost tx (servers config.cacheService) 1) 2
          tx._to tx._value) ∧ tx._value ≠ Int64.minValue) := by
  obtain ⟨reached, known, covered⟩ := attempted
  have next : lossy throws lost (.redis config.cacheService (.get tx._from)) (servers, 0) =
      (.reply (exec (.get tx._from) (servers config.cacheService)).1, servers, 1) := by
    simp [lossy, flaky, reached, serve, exec_get_db]
  obtain ⟨total, first, second⟩ := debit_parts config cereal throws lost tx (servers, 1)
  simp only [Atomic]
  rw [handleTransaction_root config cereal self root tx written, if_neg known, run_issue,
    trace_issue, next]
  simp only [decided_get, covered, ↓reduceIte]
  -- The balance check comes first, so places in the rest count from one.
  have places : ∀ place effect, TookEffect
      ((Effect.redis config.cacheService (.get tx._from),
        Answer.reply (exec (.get tx._from) (servers config.cacheService)).1) ::
        trace (lossy throws lost) (debit config cereal tx) (servers, 1)) (place + 1) effect ↔
      TookEffect (trace (lossy throws lost) (debit config cereal tx) (servers, 1)) place
        effect := by
    simp [TookEffect]
  rw [places 0, places 1, total, first, second]
  simp only [DebitEffective]
  have negation : (-tx._value).toInt + tx._value.toInt = 0 ↔ tx._value ≠ Int64.minValue := by
    constructor
    · rintro zero least
      rw [least] at zero
      exact absurd zero (by decide)
    · intro exact
      have negated := toInt_neg tx._value exact
      omega
  exact moves_cancel_iff _ _ _ _ _ _ negation

end Whole

/-- Whether the credit is refused, said of the record before the call. -/
theorem credit_effective_iff (lost : Nat → Bool) (db : Db) (tx : Transaction)
    (least : tx._value = Int64.minValue → tx._to = tx._from → ¬ DebitEffective lost db tx) :
    tx._to ≠ [] ∧ Effective lost (tried lost tx db 1) 2 tx._to tx._value ↔
      CreditEffective lost db tx := by
  simp only [CreditEffective, Effective]
  by_cases both : tx._to = tx._from ∧ DebitEffective lost db tx
  · -- The debit left a number, and adding the amount again gives the old one.
    obtain ⟨same, reached, accepted⟩ := both
    have value : tx._value ≠ Int64.minValue := fun equal => least equal same ⟨reached, accepted⟩
    have kept : (incremented (tried lost tx db 1) tx._to tx._value).isSome := by
      obtain ⟨n, found⟩ := Option.isSome_iff_exists.mp accepted
      obtain ⟨sum, fits⟩ := incremented_some db tx._from (-tx._value) n found
      have record : (tried lost tx db 1).lookup tx._from = some (.string (decimal n)) := by
        simp [tried, reached, debited, afterIncr_accepted db _ _ n found]
      rw [same, incremented_isSome_iff, record]
      refine ⟨by simp [counter, parseExact_decimal n fits], ?_⟩
      have before := reading_fits (db.lookup tx._from)
      have negated := toInt_neg tx._value value
      simp only [reading, atoll_decimal n fits]
      simp only [Fits] at before ⊢
      omega
    have debit : DebitEffective lost db tx := ⟨reached, accepted⟩
    rw [eq_true kept, eq_true (show tx._to = tx._from ∧ DebitEffective lost db tx from
      ⟨same, debit⟩), true_or, and_true, and_true]
    exact and_comm
  · have alike : incremented (tried lost tx db 1) tx._to tx._value =
        incremented db tx._to tx._value := by
      simp only [tried]
      split
      · rfl
      · next reached =>
          by_cases same : tx._to = tx._from
          · have refused : incremented db tx._from (-tx._value) = none := by
              cases answer : incremented db tx._from (-tx._value) with
              | none => rfl
              | some n => exact absurd ⟨same, by simpa using reached, by simp [answer]⟩ both
            rw [debited, afterIncr_refused db _ _ refused]
          · simp only [incremented, debited, afterIncr_lookup_other db _ _ _ same]
    rw [alike]
    simp [both, and_left_comm]

/-- For every outcome of the commands of a call: it conserves the sum, with
both commands or neither, exactly under `Conserving`. -/
theorem transfer_atomic_iff (config : Config) (cereal : Cereal) (self : FPService)
    (throws : Bytes → Bool) (root : self._nodeRole = .root) (lawful : cereal.Lawful)
    (lost : Nat → Bool) (tx : Transaction) (servers : Servers) :
    Atomic config cereal self throws lost tx servers ↔
      Conserving lost (servers config.cacheService) tx := by
  have written := lawful.transaction.nonempty tx
  simp only [Conserving]
  by_cases attempted : Attempted lost (servers config.cacheService) tx
  · rw [attempted_atomic_iff config cereal self throws lost tx servers root written attempted]
    simp only [attempted, true_imp_iff]
    by_cases least : tx._value = Int64.minValue ∧ tx._to = tx._from ∧
        DebitEffective lost (servers config.cacheService) tx
    · simp [least.1, least.2.2]
    · rw [credit_effective_iff lost (servers config.cacheService) tx
        fun value same effective => least ⟨value, same, effective⟩]
  · simp only [attempted, false_imp_iff, iff_true]
    exact unattempted_atomic config cereal self throws lost tx servers root written attempted

def payment : Transaction := ⟨ascii "t1", alice, bob, 4, 0⟩

theorem transfer_atomic_iff_payment :
    Atomic rootServerConf CerealJson.cerealJson rootService (fun _ => false) (fun _ => false)
      payment (funded alice) ↔
    Conserving (fun _ => false) (funded alice rootServerConf.cacheService) payment :=
  transfer_atomic_iff rootServerConf CerealJson.cerealJson rootService (fun _ => false) rfl
    CerealJson.cerealJson_lawful (fun _ => false) payment (funded alice)

/-- The third command is lost: four has left one account and reached none. -/
theorem lost_credit_not_atomic :
    ¬ Atomic rootServerConf CerealJson.cerealJson rootService (fun _ => false) (fun n => n = 2)
      payment (funded alice) := by
  intro atomic
  have total := atomic.1
  revert total
  decide +kernel

end FPayNode.TransferAtomicity
