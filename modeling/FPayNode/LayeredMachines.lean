import FPayNode.WorkerPool

/-!
A machine that is built on another one. A program that issues commands of the
upper machine is run on the lower one, whose commands also say which worker
issues them. When the two answer alike, a pool of workers over the lower machine
goes through the states of a pool over the upper one.

What the lower machine does can depend on more than the upper one knows. Then
the upper machine has a fate for each command, and the fates of a whole run are
found from the run.
-/

namespace FPayNode.LayeredMachines

open CommandProgram WorkerPool

variable {Worker Job Command Low Answer Result State Below Fate : Type}

section Pools
variable (inject : Worker → Command → Low)

/-- The commands a worker has executed, as commands of the lower machine. -/
def lowered (worker : Worker) (done : List (Command × Answer)) : List (Low × Answer) :=
  done.map fun entry => (inject worker entry.1, entry.2)

def lowerProgram (worker : Worker) (program : Program Command Answer Result) :
    Program Low Answer Result :=
  program.embed (inject worker) id

def lowerCall (worker : Worker) (call : Running Job Command Answer Result) :
    Running Job Low Answer Result :=
  ⟨call.job, lowered inject worker call.done, lowerProgram inject worker call.rest⟩

def lowerEvent : Event Worker Job Command Answer Result → Event Worker Job Low Answer Result
  | .executed worker job before command answer =>
      .executed worker job (lowered inject worker before) (inject worker command) answer
  | .returned worker job result => .returned worker job result

/-- The pool over the lower machine in one of its states. -/
def lowerPool (pool : Pool Worker Job Command Answer Result State) (below : Below) :
    Pool Worker Job Low Answer Result Below where
  shared := below
  running := fun worker => (pool.running worker).map (lowerCall inject worker)
  history := pool.history.map (lowerEvent inject)

@[simp] theorem lowerPool_shared (pool : Pool Worker Job Command Answer Result State)
    (below : Below) : (lowerPool inject pool below).shared = below := rfl

@[simp] theorem lowerPool_history (pool : Pool Worker Job Command Answer Result State)
    (below : Below) :
    (lowerPool inject pool below).history = pool.history.map (lowerEvent inject) := rfl

theorem lowerPool_idle (state : State) (below : Below) :
    lowerPool inject (idle state : Pool Worker Job Command Answer Result State) below =
      idle below := rfl

variable [DecidableEq Worker]

theorem resume_lowered (pool : Pool Worker Job Command Answer Result State) (below : Below)
    (worker : Worker) (job : Job) (done : List (Command × Answer))
    (program : Program Command Answer Result) :
    resume (lowerPool inject pool below) worker job (lowered inject worker done)
        (lowerProgram inject worker program) =
      lowerPool inject (resume pool worker job done program) below := by
  have placed : ∀ call : Option (Running Job Command Answer Result),
      (fun other => (Function.update pool.running worker call other).map (lowerCall inject other)) =
        Function.update (fun other => (pool.running other).map (lowerCall inject other)) worker
          (call.map (lowerCall inject worker)) := by
    intro call
    funext other
    by_cases same : other = worker
    · subst same
      rw [Function.update_self, Function.update_self]
    · rw [Function.update_of_ne same, Function.update_of_ne same]
  cases program with
  | finish result =>
      simp only [lowerProgram, Program.embed_finish, resume, lowerPool, placed, List.map_append,
        List.map_cons, List.map_nil, lowerEvent, Option.map_none]
  | issue command next =>
      simp only [lowerProgram, Program.embed_issue, resume, lowerPool, placed, Option.map_some,
        lowerCall]

/-- The command that a choice executes, and who does. -/
def executing (pool : Pool Worker Job Command Answer Result State) :
    Choice Worker Job → Option (Worker × Command)
  | .start _ _ => none
  | .advance worker => (nextCommand pool worker).map (Prod.mk worker)

section Steps
variable (low : Machine Low Answer Below) (machine : Machine Command Answer State)
variable (program : Worker → Job → Program Command Answer Result)

/-- The state of the lower machine after a choice. -/
def belowAfter (pool : Pool Worker Job Command Answer Result State) (below : Below)
    (choice : Choice Worker Job) : Below :=
  match executing pool choice with
  | some (worker, command) => (low (inject worker command) below).2
  | none => below

/-- A step over the lower machine, where that answers as the upper one. -/
theorem step_lowered (pool : Pool Worker Job Command Answer Result State) (below : Below)
    (choice : Choice Worker Job)
    (alike : ∀ worker command, executing pool choice = some (worker, command) →
      (low (inject worker command) below).1 = (machine command pool.shared).1) :
    step low (fun worker job => lowerProgram inject worker (program worker job))
        (lowerPool inject pool below) choice =
      lowerPool inject (step machine program pool choice)
        (belowAfter inject low pool below choice) := by
  cases choice with
  | start worker job =>
      simp only [step, lowerPool]
      cases found : pool.running worker with
      | some call => rfl
      | none => exact resume_lowered inject pool below worker job [] (program worker job)
  | advance worker =>
      cases found : pool.running worker with
      | none => simp only [step, lowerPool, found, belowAfter, executing, nextCommand, Option.map_none]
      | some call =>
          obtain ⟨job, done, rest⟩ := call
          cases rest with
          | finish result => simp only [step, lowerPool, found, belowAfter, executing, nextCommand,
              Option.map_some, Option.map_none, lowerCall, lowerProgram, Program.embed_finish]
          | issue command next =>
              have executes : executing pool (.advance worker) = some (worker, command) := by
                rw [executing, nextCommand_eq pool worker _ command next found rfl, Option.map_some]
              have answer := alike worker command executes
              have resumed := resume_lowered inject
                { pool with
                  shared := (machine command pool.shared).2
                  history := pool.history ++
                    [.executed worker job done command (machine command pool.shared).1] }
                (low (inject worker command) below).2 worker job
                (done ++ [(command, (machine command pool.shared).1)])
                (next (machine command pool.shared).1)
              simp only [step, lowerPool, found, Option.map_some, lowerCall, lowerProgram,
                Program.embed_issue, belowAfter, executes]
              rw [answer]
              simpa only [lowerPool, lowered, lowerProgram, lowerEvent, List.map_append,
                List.map_cons, List.map_nil, id_eq] using resumed

theorem resume_shared (pool : Pool Worker Job Command Answer Result State) (worker : Worker)
    (job : Job) (done : List (Command × Answer)) (rest : Program Command Answer Result) :
    (resume pool worker job done rest).shared = pool.shared := by
  cases rest <;> rfl

theorem step_shared (pool : Pool Worker Job Command Answer Result State)
    (choice : Choice Worker Job) :
    (step machine program pool choice).shared =
      belowAfter (fun _ command => command) machine pool pool.shared choice := by
  cases choice with
  | start worker job =>
      simp only [step]
      split
      · rfl
      · exact resume_shared ..
  | advance worker =>
      cases found : pool.running worker with
      | none => simp only [step, found, belowAfter, executing, nextCommand, Option.map_none]
      | some call =>
          obtain ⟨job, done, rest⟩ := call
          cases rest with
          | finish result =>
              simp only [step, found, belowAfter, executing, nextCommand, Option.map_none]
          | issue command next =>
              simp only [step, found, belowAfter, executing, nextCommand, Option.map_some]
              exact resume_shared ..

/-- The machines answer alike from related states, and stay related. -/
def Simulates (related : Below → State → Prop) : Prop :=
  ∀ worker command below state, related below state →
    (low (inject worker command) below).1 = (machine command state).1 ∧
      related (low (inject worker command) below).2 (machine command state).2

/-- A run over the lower machine is a run over the upper one. -/
theorem runPool_lowered (related : Below → State → Prop)
    (simulates : Simulates inject low machine related)
    (pool : Pool Worker Job Command Answer Result State) (below : Below)
    (schedule : List (Choice Worker Job)) (holds : related below pool.shared) :
    ∃ after, runPool low (fun worker job => lowerProgram inject worker (program worker job))
        (lowerPool inject pool below) schedule =
      lowerPool inject (runPool machine program pool schedule) after ∧
        related after (runPool machine program pool schedule).shared := by
  induction schedule generalizing pool below with
  | nil => exact ⟨below, rfl, holds⟩
  | cons choice schedule ih =>
      have lowers := step_lowered inject low machine program pool below choice
        fun worker command _ => (simulates worker command below pool.shared holds).1
      have related : related (belowAfter inject low pool below choice)
          (step machine program pool choice).shared := by
        rw [step_shared]
        simp only [belowAfter]
        split
        · exact (simulates _ _ below pool.shared holds).2
        · exact holds
      obtain ⟨after, runs, ends⟩ := ih _ _ related
      refine ⟨after, ?_, ends⟩
      rw [runPool, List.foldl_cons, lowers]
      exact runs

end Steps

/-! Fates. -/

/-- The first fate, and those after it. -/
def fateThen (fate : Fate) (later : Nat → Fate) : Nat → Fate
  | 0 => fate
  | n + 1 => later n

/-- A machine of which each command has a fate. -/
def foretold (happening : Fate → Machine Command Answer State) :
    Machine Command Answer ((Nat → Fate) × State) := fun command state =>
  let left := happening (state.1 0) command state.2
  (left.1, (fun n => state.1 (n + 1), left.2))

def withFates (pool : Pool Worker Job Command Answer Result State) (fates : Nat → Fate) :
    Pool Worker Job Command Answer Result ((Nat → Fate) × State) :=
  ⟨(fates, pool.shared), pool.running, pool.history⟩

theorem resume_withFates (pool : Pool Worker Job Command Answer Result State)
    (fates : Nat → Fate) (worker : Worker) (job : Job) (done : List (Command × Answer))
    (rest : Program Command Answer Result) :
    resume (withFates pool fates) worker job done rest =
      withFates (resume pool worker job done rest) fates := by
  cases rest <;> rfl

section Fates
variable (happening : Fate → Machine Command Answer State)
variable (program : Worker → Job → Program Command Answer Result)

theorem step_executing (pool : Pool Worker Job Command Answer Result State) (fate : Fate)
    (later : Nat → Fate) (choice : Choice Worker Job)
    (executes : (executing pool choice).isSome) :
    step (foretold happening) program (withFates pool (fateThen fate later)) choice =
      withFates (step (happening fate) program pool choice) later := by
  cases choice with
  | start worker job => cases executes
  | advance worker =>
      cases found : pool.running worker with
      | none => simp [executing, nextCommand, found] at executes
      | some call =>
          obtain ⟨job, done, rest⟩ := call
          cases rest with
          | finish result => simp [executing, nextCommand, found] at executes
          | issue command next =>
              simp only [step, withFates, found]
              exact resume_withFates
                { pool with
                  shared := (happening fate command pool.shared).2
                  history := pool.history ++
                    [.executed worker job done command (happening fate command pool.shared).1] }
                later worker job (done ++ [(command, (happening fate command pool.shared).1)])
                (next (happening fate command pool.shared).1)

theorem step_otherwise (pool : Pool Worker Job Command Answer Result State) (fate : Fate)
    (fates : Nat → Fate) (choice : Choice Worker Job) (rests : executing pool choice = none) :
    step (foretold happening) program (withFates pool fates) choice =
      withFates (step (happening fate) program pool choice) fates := by
  cases choice with
  | start worker job =>
      simp only [step, withFates]
      cases found : pool.running worker with
      | some call => rfl
      | none => exact resume_withFates pool fates worker job _ _
  | advance worker =>
      cases found : pool.running worker with
      | none => simp only [step, withFates, found]
      | some call =>
          obtain ⟨job, done, rest⟩ := call
          cases rest with
          | finish result => simp only [step, withFates, found]
          | issue command next => simp [executing, nextCommand, found] at rests

variable (low : Machine Low Answer Below) (related : Below → State → Prop)
variable (calm : Below → Prop) (mild : Fate → Prop)

/-- For what the lower machine does there is a fate, and a mild one when the
lower machine is calm. -/
def Foretells : Prop :=
  ∀ worker command below state, related below state → ∃ fate,
    (low (inject worker command) below).1 = (happening fate command state).1 ∧
      related (low (inject worker command) below).2 (happening fate command state).2 ∧
      (calm below → mild fate ∧ calm (low (inject worker command) below).2)

/-- A run over the lower machine is a run over the upper one under some fates. -/
theorem runPool_foretold
    (foretells : Foretells inject happening low related calm mild)
    (usual : Fate) (gentle : mild usual) (pool : Pool Worker Job Command Answer Result State)
    (below : Below) (schedule : List (Choice Worker Job)) (holds : related below pool.shared) :
    ∃ fates after,
      let upper := runPool (foretold happening) program (withFates pool fates) schedule
      runPool low (fun worker job => lowerProgram inject worker (program worker job))
          (lowerPool inject pool below) schedule = lowerPool inject upper after ∧
        related after upper.shared.2 ∧
        (calm below → (∀ n, mild (fates n)) ∧ calm after) := by
  induction schedule generalizing pool below with
  | nil => exact ⟨fun _ => usual, below, rfl, holds, fun quiet => ⟨fun _ => gentle, quiet⟩⟩
  | cons choice schedule ih =>
      cases executes : executing pool choice with
      | none =>
          have lowers := step_lowered inject low (happening usual) program pool below choice
            fun worker command is => by rw [executes] at is; cases is
          have shared := step_shared (happening usual) program pool choice
          simp only [belowAfter, executes] at lowers shared
          obtain ⟨fates, after, runs, ends, quiet⟩ := ih _ below (shared ▸ holds)
          refine ⟨fates, after, ?_⟩
          simp only [runPool, List.foldl_cons]
          rw [lowers, step_otherwise happening program pool usual fates choice executes]
          exact ⟨runs, ends, quiet⟩
      | some executed =>
          obtain ⟨worker, command⟩ := executed
          obtain ⟨fate, answer, next, stays⟩ := foretells worker command below pool.shared holds
          have lowers := step_lowered inject low (happening fate) program pool below choice
            fun worker command is => by rw [executes] at is; cases is; exact answer
          have shared := step_shared (happening fate) program pool choice
          simp only [belowAfter, executes] at lowers shared
          obtain ⟨fates, after, runs, ends, quiet⟩ := ih _ _ (shared ▸ next)
          refine ⟨fateThen fate fates, after, ?_⟩
          simp only [runPool, List.foldl_cons]
          rw [lowers, step_executing happening program pool fate fates choice (by simp [executes])]
          refine ⟨runs, ends, fun calm => ?_⟩
          obtain ⟨gentle, calm⟩ := stays calm
          obtain ⟨later, still⟩ := quiet calm
          refine ⟨fun n => ?_, still⟩
          cases n with
          | zero => exact gentle
          | succ n => exact later n

end Fates

end Pools

end FPayNode.LayeredMachines
