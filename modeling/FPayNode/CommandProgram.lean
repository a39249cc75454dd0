import Mathlib.Logic.Function.Basic
import Mathlib.Tactic.Common

/-!
Programs that act on a shared state only through atomic commands. A program
is the tree of its commands and of what it does with each answer, so that the
same text is run alone, run with commands that get lost, or interleaved with
other programs. Nothing here depends on which commands there are.
-/

namespace FPayNode.CommandProgram

inductive Program (Command Answer Result : Type) where
  | finish (result : Result)
  | issue (command : Command) (next : Answer → Program Command Answer Result)

variable {Command Answer Result Final State : Type}

namespace Program

def bind : Program Command Answer Result → (Result → Program Command Answer Final) →
    Program Command Answer Final
  | .finish result, rest => rest result
  | .issue command next, rest => .issue command fun answer => (next answer).bind rest

instance : Monad (Program Command Answer) where
  pure := .finish
  bind := bind

/-- One command whose answer is the result. -/
def perform (command : Command) : Program Command Answer Answer :=
  .issue command .finish

@[simp] theorem pure_def (result : Result) :
    (pure result : Program Command Answer Result) = .finish result := rfl

@[simp] theorem finish_bind (result : Result) (rest : Result → Program Command Answer Final) :
    (Program.finish result >>= rest) = rest result := rfl

@[simp] theorem issue_bind (command : Command) (next : Answer → Program Command Answer Result)
    (rest : Result → Program Command Answer Final) :
    (Program.issue command next >>= rest) =
      .issue command fun answer => next answer >>= rest := rfl

@[simp] theorem perform_bind (command : Command) (rest : Answer → Program Command Answer Final) :
    (perform command >>= rest) = .issue command rest := rfl

/-- Every command that the program can issue, whatever is answered. -/
def Issues (holds : Command → Prop) : Program Command Answer Result → Prop
  | .finish _ => True
  | .issue command next => holds command ∧ ∀ answer, (next answer).Issues holds

@[simp] theorem issues_finish (holds : Command → Prop) (result : Result) :
    (Program.finish result : Program Command Answer Result).Issues holds ↔ True := Iff.rfl

@[simp] theorem issues_issue (holds : Command → Prop) (command : Command)
    (next : Answer → Program Command Answer Result) :
    (Program.issue command next).Issues holds ↔
      holds command ∧ ∀ answer, (next answer).Issues holds := Iff.rfl

theorem issues_mono (holds more : Command → Prop) (program : Program Command Answer Result)
    (weaker : ∀ command, holds command → more command) (issues : program.Issues holds) :
    program.Issues more := by
  induction program with
  | finish result => exact trivial
  | issue command next ih =>
      exact ⟨weaker command issues.1, fun answer => ih answer (issues.2 answer)⟩

theorem issues_bind (holds : Command → Prop) (program : Program Command Answer Result)
    (rest : Result → Program Command Answer Final) (first : program.Issues holds)
    (second : ∀ result, (rest result).Issues holds) : (program >>= rest).Issues holds := by
  induction program with
  | finish result => exact second result
  | issue command next ih => exact ⟨first.1, fun answer => ih answer (first.2 answer)⟩

variable {Wider Broader : Type} (inject : Command → Wider) (project : Broader → Answer)

/-- The program over commands that a wider machine has too. -/
def embed : Program Command Answer Result → Program Wider Broader Result
  | .finish result => .finish result
  | .issue command next => .issue (inject command) fun answer => (next (project answer)).embed

@[simp] theorem embed_finish (result : Result) :
    (Program.finish result : Program Command Answer Result).embed inject project =
      .finish result := rfl

@[simp] theorem embed_issue (command : Command) (next : Answer → Program Command Answer Result) :
    (Program.issue command next).embed inject project =
      .issue (inject command) fun answer => (next (project answer)).embed inject project := rfl

theorem embed_bind (program : Program Command Answer Result)
    (rest : Result → Program Command Answer Final) :
    (program >>= rest).embed inject project =
      program.embed inject project >>= fun result => (rest result).embed inject project := by
  induction program with
  | finish result => rfl
  | issue command next ih =>
      simp only [issue_bind, embed_issue, ih]

theorem issues_embed (holds : Wider → Prop) (program : Program Command Answer Result)
    (issues : program.Issues fun command => holds (inject command)) :
    (program.embed inject project).Issues holds := by
  induction program with
  | finish result => exact trivial
  | issue command next ih => exact ⟨issues.1, fun answer => ih _ (issues.2 _)⟩

end Program

/-- What one atomic command answers and how it changes the state. -/
abbrev Machine (Command Answer State : Type) := Command → State → Answer × State

section Alone
variable (machine : Machine Command Answer State)

def run : Program Command Answer Result → State → Result × State
  | .finish result, state => (result, state)
  | .issue command next, state =>
      run (next (machine command state).1) (machine command state).2

/-- The commands a run executes, in order and with their answers. -/
def trace : Program Command Answer Result → State → List (Command × Answer)
  | .finish _, _ => []
  | .issue command next, state =>
      (command, (machine command state).1) ::
        trace (next (machine command state).1) (machine command state).2

@[simp] theorem run_finish (result : Result) (state : State) :
    run machine (.finish result) state = (result, state) := rfl

@[simp] theorem run_issue (command : Command) (next : Answer → Program Command Answer Result)
    (state : State) :
    run machine (.issue command next) state =
      run machine (next (machine command state).1) (machine command state).2 := rfl

@[simp] theorem trace_finish (result : Result) (state : State) :
    trace machine (.finish result : Program Command Answer Result) state = [] := rfl

@[simp] theorem trace_issue (command : Command) (next : Answer → Program Command Answer Result)
    (state : State) :
    trace machine (.issue command next) state =
      (command, (machine command state).1) ::
        trace machine (next (machine command state).1) (machine command state).2 := rfl

theorem run_bind (program : Program Command Answer Result)
    (rest : Result → Program Command Answer Final) (state : State) :
    run machine (program >>= rest) state =
      run machine (rest (run machine program state).1) (run machine program state).2 := by
  induction program generalizing state with
  | finish result => rfl
  | issue command next ih =>
      simp only [Program.issue_bind, run_issue]
      exact ih _ _

theorem trace_bind (program : Program Command Answer Result)
    (rest : Result → Program Command Answer Final) (state : State) :
    trace machine (program >>= rest) state =
      trace machine program state ++
        trace machine (rest (run machine program state).1) (run machine program state).2 := by
  induction program generalizing state with
  | finish result => rfl
  | issue command next ih =>
      simp only [Program.issue_bind, trace_issue, run_issue, List.cons_append]
      rw [ih]

/-! Calls made one after another, each run to its end. -/

variable {Job : Type} (program : Job → Program Command Answer Result)

def after (state : State) (job : Job) : State := (run machine (program job) state).2

def runAll (state : State) (jobs : List Job) : State :=
  jobs.foldl (after machine program) state

/-- What the calls return. -/
def results : State → List Job → List Result
  | _, [] => []
  | state, job :: jobs =>
      (run machine (program job) state).1 :: results (after machine program state job) jobs

/-- Every call meets the condition in the state it is made in. -/
def Throughout (Meets : State → Job → Prop) : State → List Job → Prop
  | _, [] => True
  | state, job :: jobs =>
      Meets state job ∧ Throughout Meets (after machine program state job) jobs

@[simp] theorem throughout_nil (Meets : State → Job → Prop) (state : State) :
    Throughout machine program Meets state [] ↔ True := Iff.rfl

@[simp] theorem throughout_cons (Meets : State → Job → Prop) (state : State) (job : Job)
    (jobs : List Job) :
    Throughout machine program Meets state (job :: jobs) ↔
      Meets state job ∧ Throughout machine program Meets (after machine program state job) jobs :=
  Iff.rfl

@[simp] theorem runAll_nil (state : State) : runAll machine program state [] = state := rfl

@[simp] theorem runAll_cons (state : State) (job : Job) (jobs : List Job) :
    runAll machine program state (job :: jobs) =
      runAll machine program (after machine program state job) jobs := rfl

@[simp] theorem results_nil (state : State) : results machine program state [] = [] := rfl

@[simp] theorem results_cons (state : State) (job : Job) (jobs : List Job) :
    results machine program state (job :: jobs) =
      (run machine (program job) state).1 ::
        results machine program (after machine program state job) jobs := rfl

theorem runAll_append (state : State) (earlier later : List Job) :
    runAll machine program state (earlier ++ later) =
      runAll machine program (runAll machine program state earlier) later :=
  List.foldl_append

theorem results_append (state : State) (earlier later : List Job) :
    results machine program state (earlier ++ later) =
      results machine program state earlier ++
        results machine program (runAll machine program state earlier) later := by
  induction earlier generalizing state with
  | nil => rfl
  | cons job earlier ih =>
      simp only [List.cons_append, results_cons, runAll_cons]
      rw [ih]

theorem throughout_append (Meets : State → Job → Prop) (state : State)
    (earlier later : List Job) :
    Throughout machine program Meets state (earlier ++ later) ↔
      Throughout machine program Meets state earlier ∧
        Throughout machine program Meets (runAll machine program state earlier) later := by
  induction earlier generalizing state with
  | nil => simp
  | cons job earlier ih =>
      simp only [List.cons_append, throughout_cons, runAll_cons, ih, and_assoc]

/-- Two conditions on calls are the same along a sequence when they are the
same from every state of an invariant, and the first one keeps it. -/
theorem throughout_congr (holds : State → Prop) (Admits : Job → Prop)
    (First Second : State → Job → Prop)
    (same : ∀ state job, holds state → Admits job → (First state job ↔ Second state job))
    (kept : ∀ state job, holds state → First state job → holds (after machine program state job))
    (state : State) (jobs : List Job) (before : holds state)
    (admitted : ∀ job ∈ jobs, Admits job) :
    Throughout machine program First state jobs ↔
      Throughout machine program Second state jobs := by
  induction jobs generalizing state with
  | nil => rfl
  | cons job jobs ih =>
      rw [throughout_cons, throughout_cons,
        ← same state job before (admitted job List.mem_cons_self)]
      apply and_congr_right
      intro first
      exact ih _ (kept state job before first) fun other member =>
        admitted other (List.mem_cons_of_mem job member)

end Alone

/-! Programs under a monitor. It sees the commands and their answers, and says
in which of its states a command may be issued. -/

section Monitor
variable {Monitor : Type} (track : Monitor → Command → Answer → Monitor)
variable (admits : Monitor → Command → Prop) (expected : Command → Answer → Prop)

/-- The monitor admits every command, as long as the answers are expected. -/
def Program.Guards (post : Monitor → Result → Prop) :
    Program Command Answer Result → Monitor → Prop
  | .finish result, monitor => post monitor result
  | .issue command next, monitor => admits monitor command ∧
      ∀ answer, expected command answer → (next answer).Guards post (track monitor command answer)

variable {track admits expected} in
theorem Program.Guards.bind {program : Program Command Answer Result}
    {rest : Result → Program Command Answer Final} {middle : Monitor → Result → Prop}
    {post : Monitor → Final → Prop} {monitor : Monitor}
    (first : program.Guards track admits expected middle monitor)
    (second : ∀ later result, middle later result →
      (rest result).Guards track admits expected post later) :
    (program >>= rest).Guards track admits expected post monitor := by
  induction program generalizing monitor with
  | finish result => exact second monitor result first
  | issue command next ih => exact ⟨first.1, fun answer is => ih answer (first.2 answer is)⟩

/-- Every command of a list of commands and answers is admitted. -/
def Monitored : Monitor → List (Command × Answer) → Prop
  | _, [] => True
  | monitor, (command, answer) :: later =>
      admits monitor command ∧ Monitored (track monitor command answer) later

instance [∀ monitor command, Decidable (admits monitor command)] :
    ∀ monitor entries, Decidable (Monitored track admits monitor entries)
  | _, [] => .isTrue trivial
  | monitor, (command, answer) :: later =>
      have := instDecidableMonitored (track monitor command answer) later
      inferInstanceAs (Decidable (admits monitor command ∧ _))

theorem monitored_trace (machine : Machine Command Answer State)
    (program : Program Command Answer Result) (post : Monitor → Result → Prop) (monitor : Monitor)
    (state : State) (guards : program.Guards track admits expected post monitor)
    (answers : ∀ entry ∈ trace machine program state, expected entry.1 entry.2) :
    Monitored track admits monitor (trace machine program state) := by
  induction program generalizing monitor state with
  | finish result => exact trivial
  | issue command next ih =>
      obtain ⟨here, later⟩ := guards
      have first := answers _ List.mem_cons_self
      exact ⟨here, ih _ _ _ (later _ first) fun entry member =>
        answers entry (List.mem_cons_of_mem _ member)⟩

end Monitor

/-- A machine some of whose commands are lost. The `n`-th command issued has
no effect and the answer `absent` when `lost n` says so. -/
def flaky (machine : Machine Command Answer State) (absent : Answer) (lost : Nat → Bool) :
    Machine Command Answer (State × Nat) := fun command state =>
  if lost state.2 then (absent, (state.1, state.2 + 1))
  else ((machine command state.1).1, ((machine command state.1).2, state.2 + 1))

end FPayNode.CommandProgram
