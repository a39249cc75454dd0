import FPayNode.WorkerPool
import FPayNode.Totals
import Mathlib.Algebra.BigOperators.Ring.Finset

/-!
Interleaved programs that use something up. A command has a price that its call
must hold, and an answer may bring the call more. When every command moves at
most its price into what the shared state stores and into what counts as spent,
then no interleaving spends more than was granted.
-/

namespace FPayNode.Budgets

open CommandProgram WorkerPool

variable {Worker Job Command Wider Answer Broader Result Final State : Type}

/-- The commands of the program cost no more than the budget, whatever is
answered. -/
def Costs (price : Command → Nat) : Program Command Answer Result → Nat → Prop
  | .finish _, _ => True
  | .issue command next, budget =>
      price command ≤ budget ∧ ∀ answer, Costs price (next answer) (budget - price command)

section Costs
variable (price : Command → Nat)

theorem costs_mono (program : Program Command Answer Result) (budget more : Nat)
    (less : budget ≤ more) (costs : Costs price program budget) : Costs price program more := by
  induction program generalizing budget more with
  | finish result => exact trivial
  | issue command next ih =>
      obtain ⟨here, later⟩ := costs
      exact ⟨here.trans less, fun answer =>
        ih answer _ _ (Nat.sub_le_sub_right less _) (later answer)⟩

theorem costs_bind (program : Program Command Answer Result)
    (rest : Result → Program Command Answer Final) (first second : Nat)
    (costs : Costs price program first) (after : ∀ result, Costs price (rest result) second) :
    Costs price (program >>= rest) (first + second) := by
  induction program generalizing first with
  | finish result => exact costs_mono price _ _ _ (Nat.le_add_left second first) (after result)
  | issue command next ih =>
      obtain ⟨here, later⟩ := costs
      refine ⟨here.trans (Nat.le_add_right first second), fun answer => ?_⟩
      rw [Nat.sub_add_comm here]
      exact ih answer _ (later answer)

/-- A program that issues only what is free. -/
theorem costs_free (program : Program Command Answer Result) (budget : Nat)
    (free : program.Issues fun command => price command = 0) : Costs price program budget := by
  induction program with
  | finish result => exact trivial
  | issue command next ih =>
      obtain ⟨here, later⟩ := free
      refine ⟨by rw [here]; exact Nat.zero_le _, fun answer => ?_⟩
      rw [here]
      exact ih answer (later answer)

theorem costs_free_bind (program : Program Command Answer Result)
    (rest : Result → Program Command Answer Final) (budget : Nat)
    (free : program.Issues fun command => price command = 0)
    (after : ∀ result, Costs price (rest result) budget) :
    Costs price (program >>= rest) budget := by
  have both := costs_bind price program rest 0 budget (costs_free price program 0 free) after
  rwa [Nat.zero_add] at both

end Costs

/-- What commands use up, bring in, spend and grant, and what a state stores. -/
structure Budget (Command Answer State : Type) where
  price : Command → Nat
  gain : Command → Answer → Nat
  spent : Command → Answer → Nat
  granted : Command → Answer → Nat
  stored : State → Nat

namespace Budget
variable (budget : Budget Command Answer State)

/-- A call holds what its answers brought in and its commands did not use up. -/
def purse : Discipline Worker Job Command Answer Nat where
  entry _ _ := 0
  allowed held command := budget.price command ≤ held
  next held command answer := held - budget.price command + budget.gain command answer

@[simp] theorem purse_entry (worker : Worker) (job : Job) :
    (budget.purse : Discipline Worker Job Command Answer Nat).entry worker job = 0 := rfl

@[simp] theorem purse_allowed (held : Nat) (command : Command) :
    (budget.purse : Discipline Worker Job Command Answer Nat).allowed held command ↔
      budget.price command ≤ held := Iff.rfl

@[simp] theorem purse_next (held : Nat) (command : Command) (answer : Answer) :
    (budget.purse : Discipline Worker Job Command Answer Nat).next held command answer =
      held - budget.price command + budget.gain command answer := rfl

/-- No command makes something out of nothing. -/
def Balanced (machine : Machine Command Answer State) : Prop :=
  ∀ command state,
    budget.stored (machine command state).2 + budget.gain command (machine command state).1 +
        budget.spent command (machine command state).1 ≤
      budget.stored state + budget.price command + budget.granted command (machine command state).1

theorem embed_follows (inject : Command → Wider) (project : Broader → Answer)
    (budget : Budget Wider Broader State) (nothing : ∀ command answer,
      budget.gain (inject command) answer = 0)
    (program : Program Command Answer Result) (held : Nat)
    (costs : Costs (fun command => budget.price (inject command)) program held) :
    (budget.purse : Discipline Worker Job Wider Broader Nat).Follows (fun _ _ => True) held
      (program.embed inject project) := by
  induction program generalizing held with
  | finish result => exact trivial
  | issue command next ih =>
      refine ⟨costs.1, fun answer => ?_⟩
      rw [purse_next, nothing, Nat.add_zero]
      exact ih _ _ (costs.2 _)

/-- The amount over the commands that were executed. -/
def tally (amount : Command → Answer → Nat)
    (history : List (Event Worker Job Command Answer Result)) : Nat :=
  (history.map fun
    | .executed _ _ _ command answer => amount command answer
    | .returned _ _ _ => 0).sum

@[simp] theorem tally_nil (amount : Command → Answer → Nat) :
    tally amount ([] : List (Event Worker Job Command Answer Result)) = 0 := rfl

@[simp] theorem tally_executed (amount : Command → Answer → Nat)
    (history : List (Event Worker Job Command Answer Result)) (worker : Worker) (job : Job)
    (before : List (Command × Answer)) (command : Command) (answer : Answer) :
    tally amount (history ++ [.executed worker job before command answer]) =
      tally amount history + amount command answer := by
  simp [tally]

@[simp] theorem tally_returned (amount : Command → Answer → Nat)
    (history : List (Event Worker Job Command Answer Result)) (worker : Worker) (job : Job)
    (result : Result) :
    tally amount (history ++ [.returned worker job result]) = tally amount history := by
  simp [tally]

theorem tally_pos (amount : Command → Answer → Nat)
    (history : List (Event Worker Job Command Answer Result)) (some : 0 < tally amount history) :
    ∃ worker job before command answer,
      .executed worker job before command answer ∈ history ∧ 0 < amount command answer := by
  obtain ⟨count, counted, positive⟩ := List.sum_pos_iff_exists_pos_nat.mp some
  obtain ⟨event, member, rfl⟩ := List.mem_map.mp counted
  cases event with
  | executed worker job before command answer =>
      exact ⟨worker, job, before, command, answer, member, positive⟩
  | returned worker job result => exact absurd positive (Nat.lt_irrefl 0)

/-- Where one item counts for one, the amount is a number of items. -/
theorem sum_indicator {Item : Type} (holds : Item → Prop) [DecidablePred holds]
    (items : List Item) :
    (items.map fun item => if holds item then 1 else 0).sum =
      items.countP fun item => holds item := by
  induction items with
  | nil => rfl
  | cons item items ih =>
      rw [List.map_cons, List.sum_cons, ih, List.countP_cons, Nat.add_comm]
      simp only [decide_eq_true_eq]

section Run
variable [Fintype Worker] [DecidableEq Worker]

/-- What all calls in progress hold. -/
def inHands (phases : Worker → Option Nat) : Nat := ∑ worker, (phases worker).getD 0

theorem inHands_update (phases : Worker → Option Nat) (worker : Worker) (held : Option Nat) :
    inHands (Function.update phases worker held) + (phases worker).getD 0 =
      inHands phases + held.getD 0 := by
  have sums := Totals.sum_update (fun held : Option Nat => (held.getD 0 : Int)) phases worker held
  rw [← Nat.cast_sum, ← Nat.cast_sum] at sums
  simp only [inHands]
  omega

variable (machine : Machine Command Answer State)
variable (program : Worker → Job → Program Command Answer Result)

/-- What was spent, is stored and is in hands. -/
def Within (start shared : State) (phases : Worker → Option Nat)
    (history : List (Event Worker Job Command Answer Result)) : Prop :=
  tally budget.spent history + budget.stored shared + inHands phases ≤
    budget.stored start + tally budget.granted history

theorem within_keeps (balanced : budget.Balanced machine) (start : State) :
    (budget.purse : Discipline Worker Job Command Answer Nat).Keeps machine
      (fun _ (_ : Result) => True) (fun _ _ => True) (budget.Within start) where
  begins pool worker job idle _ before := by
    have moved := inHands_update (budget.purse.phases pool) worker (some 0)
    rw [idle, Option.getD_none, Option.getD_some] at moved
    simp only [Within, purse_entry] at before ⊢
    omega
  issues pool worker call command next running rest allowed _ before := by
    have held := budget.purse.phases_running pool worker call running
    have moved := inHands_update (budget.purse.phases pool) worker
      (some (budget.purse.phaseOf worker call - budget.price command +
        budget.gain command (machine command pool.shared).1))
    have here := balanced command pool.shared
    rw [held, Option.getD_some, Option.getD_some] at moved
    simp only [Within, tally_executed, purse_next, purse_allowed] at before allowed ⊢
    omega
  returns shared phases history worker job phase result found _ before := by
    have moved := inHands_update phases worker none
    simp only [Option.getD_none] at moved
    simp only [Within, tally_returned] at before ⊢
    omega

/-- What a run spends and stores in the end was there or was granted. -/
theorem spent_le_granted (balanced : budget.Balanced machine)
    (obeys : ∀ worker job, (budget.purse : Discipline Worker Job Command Answer Nat).Follows
      (fun _ _ => True) 0 (program worker job))
    (start : State) (schedule : List (Choice Worker Job)) :
    tally budget.spent (runPool machine program (idle start) schedule).history +
        budget.stored (runPool machine program (idle start) schedule).shared ≤
      budget.stored start +
        tally budget.granted (runPool machine program (idle start) schedule).history := by
  have empty : inHands (fun _ : Worker => none) = 0 := by simp [inHands]
  have before : budget.Within start start
      (budget.purse.phases (idle start : Pool Worker Job Command Answer Result State))
      (idle start : Pool Worker Job Command Answer Result State).history := by
    simp [Within, Discipline.idle_phases, empty]
  have after := (Discipline.run_keeps (budget.within_keeps machine balanced start)
    (fun _ worker job _ => obeys worker job) (idle start) schedule
    (along_of_forall machine program (fun _ => True) _ _ fun _ _ => trivial)
    (Discipline.idle_tracked start) before).2
  exact (Nat.le_add_right _ _).trans after

end Run
end Budget
end FPayNode.Budgets
