import FPayNode.RootTransaction
import FPayNode.WorkerPool

/-!
The stages of a call of `handleTransaction` on the root node: reading the
balance, debiting, crediting, appending to the pool. The stage is computed
from the commands the call has executed, and amounts that a call has checked
or has in flight are read off its stage.
-/

namespace FPayNode.TransferStages

open CommandProgram WorkerPool DecimalText RedisServer RedisCache Messages NodeService
open RootTransaction

/-- Where a call is, by the commands it has executed. -/
inductive Stage where
  | checking | passed | debited | submitting | ended
  deriving DecidableEq

def Passes (tx : Transaction) (answer : Answer) : Prop :=
  (textOf [] answer).1 = true ∧ tx._value.toInt ≤ atoll (textOf [] answer).2

instance (tx : Transaction) (answer : Answer) : Decidable (Passes tx answer) :=
  inferInstanceAs (Decidable (_ ∧ _))

section Discipline
variable {Worker Job : Type}
variable (config : Config) (cereal : Cereal) (txOf : Job → Transaction)

def stageCommand (tx : Transaction) : Stage → Option Effect
  | .checking => some (.redis config.cacheService (.get tx._from))
  | .passed => some (.redis config.cacheService (.incrBy tx._from (-tx._value)))
  | .debited => some (.redis config.cacheService (.incrBy tx._to tx._value))
  | .submitting => some (.redis config.cacheService
      (.rpush config.txPoolKey [cereal.transaction.toString tx]))
  | .ended => none

def nextStage (tx : Transaction) (answer : Answer) : Stage → Stage
  | .checking =>
      if Passes tx answer then .passed
      else if (textOf [] answer).1 then .submitting else .ended
  | .passed => if tx._to = [] then .submitting else .debited
  | .debited => .submitting
  | .submitting => .ended
  | .ended => .ended

variable (Worker) in
def transfers : Discipline Worker Job Effect Answer (Job × Stage) where
  entry _ job := (job, .checking)
  allowed phase command := stageCommand config cereal (txOf phase.1) phase.2 = some command
  next phase _ answer := (phase.1, nextStage (txOf phase.1) answer phase.2)

theorem transfers_allowed (phase : Job × Stage) (command : Effect) :
    (transfers Worker config cereal txOf).allowed phase command ↔
      stageCommand config cereal (txOf phase.1) phase.2 = some command := Iff.rfl

theorem transfers_next (phase : Job × Stage) (command : Effect) (answer : Answer) :
    (transfers Worker config cereal txOf).next phase command answer =
      (phase.1, nextStage (txOf phase.1) answer phase.2) := rfl

/-- A call returns neither between its check and its debit nor between its
debit and its credit. -/
def Closed {Result : Type} (phase : Job × Stage) (_ : Result) : Prop :=
  phase.2 ≠ .passed ∧ phase.2 ≠ .debited

theorem submit_follows (job : Job) :
    (transfers Worker config cereal txOf).Follows Closed
      (job, .submitting) (submit config cereal (txOf job)) := by
  simp only [submit]
  split
  · exact ⟨by simp, by simp⟩
  · exact ⟨rfl, fun _ => ⟨by simp [transfers, nextStage], by simp [transfers, nextStage]⟩⟩

theorem credit_follows (job : Job) :
    (transfers Worker config cereal txOf).Follows Closed
      (job, if (txOf job)._to = [] then .submitting else .debited)
      (credit config cereal (txOf job)) := by
  simp only [credit]
  split
  · exact submit_follows config cereal txOf job
  · exact ⟨rfl, fun _ => submit_follows config cereal txOf job⟩

theorem debit_follows (job : Job) :
    (transfers Worker config cereal txOf).Follows Closed
      (job, .passed) (debit config cereal (txOf job)) :=
  ⟨rfl, fun _ => credit_follows config cereal txOf job⟩

theorem handleTransaction_follows (self : FPService) (root : self._nodeRole = .root)
    (lawful : cereal.Lawful) (job : Job) :
    (transfers Worker config cereal txOf).Follows Closed
      (job, .checking) (handleTransaction config cereal self (txOf job)) := by
  rw [handleTransaction_root config cereal self root (txOf job)
    (lawful.transaction.nonempty _)]
  split
  · exact ⟨by simp, by simp⟩
  · refine ⟨rfl, fun answer => ?_⟩
    change (transfers Worker config cereal txOf).Follows Closed
      (job, nextStage (txOf job) answer .checking) (decided config cereal (txOf job) answer)
    -- The same two tests decide the stage and what the program does next.
    by_cases found : (textOf [] answer).1 = true
    · by_cases covered : (txOf job)._value.toInt ≤ atoll (textOf [] answer).2
      · simp only [nextStage, Passes, decided, found, covered, and_self, ↓reduceIte,
          Bool.true_eq_false]
        exact debit_follows config cereal txOf job
      · simp only [nextStage, Passes, decided, found, covered, and_false, ↓reduceIte,
          Bool.true_eq_false]
        exact submit_follows config cereal txOf job
    · simp [nextStage, Passes, decided, found, Closed]

theorem phaseOf_job {Result : Type} (worker : Worker)
    (call : Running Job Effect Answer Result) :
    ((transfers Worker config cereal txOf).phaseOf worker call).1 = call.job := by
  suffices fold : ∀ (done : List (Effect × Answer)) (phase : Job × Stage),
      (done.foldl (fun phase sent =>
        (phase.1, nextStage (txOf phase.1) sent.2 phase.2)) phase).1 = phase.1 from
    fold call.done _
  intro done
  induction done with
  | nil => exact fun _ => rfl
  | cons sent done ih => exact fun phase => ih _

/-! What the phase says about the commands a call has executed. -/

def Late (stage : Stage) : Prop := stage = .submitting ∨ stage = .ended

theorem nextStage_late (tx : Transaction) (answer : Answer) (stage : Stage) (late : Late stage) :
    Late (nextStage tx answer stage) := by
  rcases late with rfl | rfl
  · exact .inr rfl
  · exact .inr rfl

theorem fold_late (done : List (Effect × Answer)) (phase : Job × Stage) (late : Late phase.2) :
    Late (done.foldl (fun phase sent =>
      (phase.1, nextStage (txOf phase.1) sent.2 phase.2)) phase).2 := by
  induction done generalizing phase with
  | nil => exact late
  | cons sent done ih => exact ih _ (nextStage_late _ _ _ late)

theorem stage_first (tx : Transaction) (answer : Answer) :
    nextStage tx answer .checking = .passed ∧ Passes tx answer ∨
      Late (nextStage tx answer .checking) ∧ ¬ Passes tx answer := by
  simp only [nextStage]
  by_cases passes : Passes tx answer
  · exact .inl (by simp [passes])
  · right
    cases found : (textOf [] answer).1 with
    | true => simp [passes, Late]
    | false => simp [passes, Late]

/-- The stage of a call from its first, second and later commands. -/
theorem phaseOf_cases {Result : Type} (worker : Worker)
    (call : Running Job Effect Answer Result) :
    (call.done = [] ∧ ((transfers Worker config cereal txOf).phaseOf worker call).2 = .checking) ∨
    (∃ sent, call.done = [sent] ∧ Passes (txOf call.job) sent.2 ∧
      ((transfers Worker config cereal txOf).phaseOf worker call).2 = .passed) ∨
    (∃ first second, call.done = [first, second] ∧ Passes (txOf call.job) first.2 ∧
      (txOf call.job)._to ≠ [] ∧
      ((transfers Worker config cereal txOf).phaseOf worker call).2 = .debited) ∨
    (Late ((transfers Worker config cereal txOf).phaseOf worker call).2 ∧
      (∀ sent, call.done = [sent] → ¬ Passes (txOf call.job) sent.2) ∧
      ∀ first second, call.done = [first, second] → (txOf call.job)._to ≠ [] →
        ¬ Passes (txOf call.job) first.2) := by
  obtain ⟨job, done, rest⟩ := call
  have later : ∀ (sent : Effect × Answer) more (stage : Stage), Late stage →
      Late ((sent :: more).foldl (fun phase sent =>
        (phase.1, nextStage (txOf phase.1) sent.2 phase.2)) (job, stage)).2 :=
    fun sent more stage late => fold_late txOf (sent :: more) (job, stage) late
  -- Only the first two answers decide; from the third command on it is late.
  match done with
  | [] => exact .inl ⟨rfl, rfl⟩
  | [sent] =>
      right
      rcases stage_first (txOf job) sent.2 with ⟨stage, passes⟩ | ⟨late, fails⟩
      · exact .inl ⟨sent, rfl, passes, stage⟩
      · refine .inr (.inr ⟨late, ?_, by simp⟩)
        intro other same
        cases same
        exact fails
  | first :: second :: more =>
      right; right
      rcases stage_first (txOf job) first.2 with ⟨stage, passes⟩ | ⟨late, fails⟩
      · have fold : ((transfers Worker config cereal txOf).phaseOf
            worker ⟨job, first :: second :: more, rest⟩) =
            more.foldl (fun phase sent =>
              (phase.1, nextStage (txOf phase.1) sent.2 phase.2))
              (job, nextStage (txOf job) second.2 .passed) := by
          simp only [Discipline.phaseOf, transfers, List.foldl_cons, stage]
        rw [fold]
        by_cases nowhere : (txOf job)._to = []
        · right
          refine ⟨?_, by simp, fun _ _ _ named => absurd nowhere named⟩
          apply fold_late
          exact .inl (by simp [nextStage, nowhere])
        · cases more with
          | nil => exact .inl ⟨first, second, rfl, passes, nowhere, by simp [nextStage, nowhere]⟩
          | cons third more =>
              right
              exact ⟨fold_late txOf more _ (.inl (by simp [nextStage, nowhere])),
                by simp, by simp⟩
      · right
        refine ⟨later second more _ late, by simp, ?_⟩
        intro one two same _
        cases same
        exact fails

end Discipline

section Amounts
variable {Worker Job Result : Type}
variable (config : Config) (cereal : Cereal) (txOf : Job → Transaction)

/-- The payment of a call that has read a covering balance of the account and
not debited it yet. -/
def checkedOn (account : Bytes) : Option (Running Job Effect Answer Result) → Int
  | some ⟨job, [sent], _⟩ =>
      if Passes (txOf job) sent.2 ∧ (txOf job)._from = account
      then (txOf job)._value.toInt else 0
  | _ => 0

/-- The amount of a call between its debit and its credit. -/
def inFlight : Option (Running Job Effect Answer Result) → Int
  | some ⟨job, [first, _], _⟩ =>
      if Passes (txOf job) first.2 then (txOf job)._value.toInt else 0
  | _ => 0

def owedOn (account : Bytes) : Option (Job × Stage) → Int
  | some (job, .passed) => if (txOf job)._from = account then (txOf job)._value.toInt else 0
  | _ => 0

def flying : Option (Job × Stage) → Int
  | some (job, .debited) => (txOf job)._value.toInt
  | _ => 0

@[simp] theorem owedOn_none (account : Bytes) :
    owedOn txOf account (none : Option (Job × Stage)) = 0 := rfl

@[simp] theorem owedOn_passed (account : Bytes) (job : Job) :
    owedOn txOf account (some (job, .passed)) =
      if (txOf job)._from = account then (txOf job)._value.toInt else 0 := rfl

theorem owedOn_other (account : Bytes) (job : Job) (stage : Stage) (other : stage ≠ .passed) :
    owedOn txOf account (some (job, stage)) = 0 := by
  cases stage with
  | passed => exact absurd rfl other
  | checking => rfl
  | debited => rfl
  | submitting => rfl
  | ended => rfl

@[simp] theorem flying_none : flying txOf (none : Option (Job × Stage)) = 0 := rfl

@[simp] theorem flying_debited (job : Job) :
    flying txOf (some (job, .debited)) = (txOf job)._value.toInt := rfl

theorem flying_other (job : Job) (stage : Stage) (other : stage ≠ .debited) :
    flying txOf (some (job, stage)) = 0 := by
  cases stage with
  | debited => exact absurd rfl other
  | checking => rfl
  | passed => rfl
  | submitting => rfl
  | ended => rfl

theorem late_amounts (account : Bytes) (phase : Job × Stage) (late : Late phase.2) :
    owedOn txOf account (some phase) = 0 ∧ flying txOf (some phase) = 0 := by
  obtain ⟨job, stage⟩ := phase
  rcases late with same | same
  · cases same
    exact ⟨rfl, rfl⟩
  · cases same
    exact ⟨rfl, rfl⟩

theorem phase_eq (worker : Worker) (call : Running Job Effect Answer Result) (stage : Stage)
    (found : ((transfers Worker config cereal txOf).phaseOf worker call).2 = stage) :
    (transfers Worker config cereal txOf).phaseOf worker call = (call.job, stage) :=
  Prod.ext (phaseOf_job config cereal txOf worker call) found

/-- The amounts read off the commands are the amounts of the phases. -/
theorem checkedOn_eq (account : Bytes)
    (pool : Pool Worker Job Effect Answer Result Servers) (worker : Worker) :
    checkedOn txOf account (pool.running worker) =
      owedOn txOf account ((transfers Worker config cereal txOf).phases pool worker) := by
  simp only [Discipline.phases]
  cases found : pool.running worker with
  | none => rfl
  | some call =>
      simp only [Option.map_some]
      rcases phaseOf_cases config cereal txOf worker call with ⟨done, stage⟩ |
        ⟨sent, done, passes, stage⟩ | ⟨first, second, done, -, -, stage⟩ | ⟨late, fails, -⟩
      · rw [phase_eq config cereal txOf worker call _ stage]
        obtain ⟨job, sent, rest⟩ := call
        cases done
        rfl
      · rw [phase_eq config cereal txOf worker call _ stage]
        obtain ⟨job, commands, rest⟩ := call
        cases done
        simp [checkedOn, owedOn, passes]
      · rw [phase_eq config cereal txOf worker call _ stage]
        obtain ⟨job, commands, rest⟩ := call
        cases done
        rfl
      · rw [(late_amounts txOf account _ late).1]
        obtain ⟨job, commands, rest⟩ := call
        rcases commands with _ | ⟨sent, _ | ⟨_, _⟩⟩
        · rfl
        · simp [checkedOn, fails sent rfl]
        · rfl

theorem inFlight_eq (named : ∀ job, (txOf job)._to ≠ [])
    (pool : Pool Worker Job Effect Answer Result Servers) (worker : Worker) :
    inFlight txOf (pool.running worker) =
      flying txOf ((transfers Worker config cereal txOf).phases pool worker) := by
  simp only [Discipline.phases]
  cases found : pool.running worker with
  | none => rfl
  | some call =>
      simp only [Option.map_some]
      rcases phaseOf_cases config cereal txOf worker call with ⟨done, stage⟩ |
        ⟨sent, done, -, stage⟩ | ⟨first, second, done, passes, -, stage⟩ | ⟨late, -, fails⟩
      · rw [phase_eq config cereal txOf worker call _ stage]
        obtain ⟨job, commands, rest⟩ := call
        cases done
        rfl
      · rw [phase_eq config cereal txOf worker call _ stage]
        obtain ⟨job, commands, rest⟩ := call
        cases done
        rfl
      · rw [phase_eq config cereal txOf worker call _ stage]
        obtain ⟨job, commands, rest⟩ := call
        cases done
        simp [inFlight, flying, passes]
      · rw [(late_amounts txOf [] _ late).2]
        obtain ⟨job, commands, rest⟩ := call
        rcases commands with _ | ⟨first, _ | ⟨second, _ | ⟨_, _⟩⟩⟩
        · rfl
        · rfl
        · simp [inFlight, fails first second rfl (named job)]
        · rfl

theorem checking_done (worker : Worker) (call : Running Job Effect Answer Result)
    (stage : ((transfers Worker config cereal txOf).phaseOf worker call).2 = .checking) :
    call.done = [] := by
  rcases phaseOf_cases config cereal txOf worker call with ⟨done, -⟩ |
    ⟨sent, -, -, other⟩ | ⟨first, second, -, -, -, other⟩ | ⟨late, -, -⟩
  · exact done
  · rw [stage] at other
    cases other
  · rw [stage] at other
    cases other
  · rw [stage] at late
    rcases late with other | other <;> cases other

/-- What a call can execute, by its stage. -/
theorem issue_cases (worker : Worker) (call : Running Job Effect Answer Result)
    (command : Effect)
    (allowed : (transfers Worker config cereal txOf).allowed
      ((transfers Worker config cereal txOf).phaseOf worker call) command) :
    ((transfers Worker config cereal txOf).phaseOf worker call = (call.job, .checking) ∧
      call.done = [] ∧ command = .redis config.cacheService (.get (txOf call.job)._from)) ∨
    ((transfers Worker config cereal txOf).phaseOf worker call = (call.job, .passed) ∧
      command = .redis config.cacheService
        (.incrBy (txOf call.job)._from (-(txOf call.job)._value))) ∨
    ((transfers Worker config cereal txOf).phaseOf worker call = (call.job, .debited) ∧
      command = .redis config.cacheService
        (.incrBy (txOf call.job)._to (txOf call.job)._value)) ∨
    ((transfers Worker config cereal txOf).phaseOf worker call = (call.job, .submitting) ∧
      command = .redis config.cacheService
        (.rpush config.txPoolKey [cereal.transaction.toString (txOf call.job)])) := by
  have job := phaseOf_job config cereal txOf worker call
  cases stage : ((transfers Worker config cereal txOf).phaseOf worker call).2 with
  | checking =>
      have done := checking_done config cereal txOf worker call stage
      rw [transfers_allowed, stage, job] at allowed
      exact .inl ⟨phase_eq config cereal txOf worker call _ stage, done,
        (Option.some.inj allowed).symm⟩
  | passed =>
      rw [transfers_allowed, stage, job] at allowed
      exact .inr (.inl ⟨phase_eq config cereal txOf worker call _ stage,
        (Option.some.inj allowed).symm⟩)
  | debited =>
      rw [transfers_allowed, stage, job] at allowed
      exact .inr (.inr (.inl ⟨phase_eq config cereal txOf worker call _ stage,
        (Option.some.inj allowed).symm⟩))
  | submitting =>
      rw [transfers_allowed, stage, job] at allowed
      exact .inr (.inr (.inr ⟨phase_eq config cereal txOf worker call _ stage,
        (Option.some.inj allowed).symm⟩))
  | ended =>
      rw [transfers_allowed, stage] at allowed
      cases allowed

end Amounts

/-- Each worker process handles the transactions it is given. -/
def rootWorkers {Worker Job : Type} (config : Config) (cereal : Cereal)
    (self : Worker → FPService) (txOf : Job → Transaction) (worker : Worker) (job : Job) :
    Calls (Except Thrown Bool) :=
  handleTransaction config cereal (self worker) (txOf job)

end FPayNode.TransferStages
