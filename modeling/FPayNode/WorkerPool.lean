import FPayNode.CommandProgram

/-!
Workers that run programs over one shared state, interleaved command by
command. A schedule is a list of choices: which worker starts which job, and
which worker executes its next command. What a worker computes between two
commands is local and happens with the command before it.

A discipline assigns a phase to what a call has executed so far and says which
commands each phase allows. Programs are checked against it once, by their own
structure; an invariant of all schedules is then proved from the phases alone,
one obligation for each kind of step.
-/

namespace FPayNode.WorkerPool

open CommandProgram

variable {Worker Job Command Answer Result Final State Phase : Type}

/-- A call in progress: the commands it has executed and what is left. -/
structure Running (Job Command Answer Result : Type) where
  job : Job
  done : List (Command × Answer)
  rest : Program Command Answer Result

inductive Event (Worker Job Command Answer Result : Type) where
  | executed (worker : Worker) (job : Job) (before : List (Command × Answer))
      (command : Command) (answer : Answer)
  | returned (worker : Worker) (job : Job) (result : Result)

structure Pool (Worker Job Command Answer Result State : Type) where
  shared : State
  running : Worker → Option (Running Job Command Answer Result)
  history : List (Event Worker Job Command Answer Result)

inductive Choice (Worker Job : Type) where
  | start (worker : Worker) (job : Job)
  | advance (worker : Worker)

def idle (shared : State) : Pool Worker Job Command Answer Result State :=
  ⟨shared, fun _ => none, []⟩

@[simp] theorem idle_shared (shared : State) :
    (idle shared : Pool Worker Job Command Answer Result State).shared = shared := rfl

@[simp] theorem idle_history (shared : State) :
    (idle shared : Pool Worker Job Command Answer Result State).history = [] := rfl

section Schedule
variable [DecidableEq Worker]
variable (machine : Machine Command Answer State)
variable (program : Worker → Job → Program Command Answer Result)

/-- The worker waits before its next command, or has returned. -/
def resume (pool : Pool Worker Job Command Answer Result State) (worker : Worker) (job : Job)
    (done : List (Command × Answer)) :
    Program Command Answer Result → Pool Worker Job Command Answer Result State
  | .finish result =>
      { pool with
        running := Function.update pool.running worker none
        history := pool.history ++ [.returned worker job result] }
  | .issue command next =>
      { pool with
        running := Function.update pool.running worker (some ⟨job, done, .issue command next⟩) }

def step (pool : Pool Worker Job Command Answer Result State) :
    Choice Worker Job → Pool Worker Job Command Answer Result State
  | .start worker job =>
      match pool.running worker with
      -- A worker handles one job at a time.
      | some _ => pool
      | none => resume pool worker job [] (program worker job)
  | .advance worker =>
      match pool.running worker with
      | some ⟨job, done, .issue command next⟩ =>
          resume
            { pool with
              shared := (machine command pool.shared).2
              history := pool.history ++
                [.executed worker job done command (machine command pool.shared).1] }
            worker job (done ++ [(command, (machine command pool.shared).1)])
            (next (machine command pool.shared).1)
      | _ => pool

def runPool (pool : Pool Worker Job Command Answer Result State)
    (schedule : List (Choice Worker Job)) : Pool Worker Job Command Answer Result State :=
  schedule.foldl (step machine program) pool

/-- The command a worker executes when it is chosen. -/
def nextCommand (pool : Pool Worker Job Command Answer Result State) (worker : Worker) :
    Option Command :=
  match pool.running worker with
  | some ⟨_, _, .issue command _⟩ => some command
  | _ => none

/-- A command that is executed is answered as `good` asks for. -/
def Answering (good : Answer → Bool) (pool : Pool Worker Job Command Answer Result State) :
    Choice Worker Job → Prop
  | .start _ _ => True
  | .advance worker => ∀ command ∈ nextCommand pool worker,
      good (machine command pool.shared).1 = true

instance (good : Answer → Bool) (pool : Pool Worker Job Command Answer Result State) :
    ∀ choice, Decidable (Answering machine good pool choice)
  | .start _ _ => .isTrue trivial
  | .advance worker => inferInstanceAs (Decidable (∀ command ∈ nextCommand pool worker, _))

/-- Every choice of the schedule meets the condition in the state it is made in. -/
def Along (Meets : Pool Worker Job Command Answer Result State → Choice Worker Job → Prop) :
    Pool Worker Job Command Answer Result State → List (Choice Worker Job) → Prop
  | _, [] => True
  | pool, choice :: schedule =>
      Meets pool choice ∧ Along Meets (step machine program pool choice) schedule

instance decidableAlong
    (Meets : Pool Worker Job Command Answer Result State → Choice Worker Job → Prop)
    [∀ pool choice, Decidable (Meets pool choice)] :
    ∀ pool schedule, Decidable (Along machine program Meets pool schedule)
  | _, [] => .isTrue trivial
  | pool, choice :: schedule =>
      have := decidableAlong Meets (step machine program pool choice) schedule
      inferInstanceAs (Decidable (Meets pool choice ∧ _))

theorem along_of_forall (holds : Choice Worker Job → Prop)
    (pool : Pool Worker Job Command Answer Result State) (schedule : List (Choice Worker Job))
    (all : ∀ choice ∈ schedule, holds choice) :
    Along machine program (fun _ choice => holds choice) pool schedule := by
  induction schedule generalizing pool with
  | nil => exact trivial
  | cons choice schedule ih =>
      exact ⟨all choice List.mem_cons_self, ih _ fun other member =>
        all other (List.mem_cons_of_mem _ member)⟩

end Schedule

theorem nextCommand_eq (pool : Pool Worker Job Command Answer Result State) (worker : Worker)
    (call : Running Job Command Answer Result) (command : Command)
    (next : Answer → Program Command Answer Result) (found : pool.running worker = some call)
    (rest : call.rest = .issue command next) : nextCommand pool worker = some command := by
  obtain ⟨job, done, program⟩ := call
  simp only at rest
  subst rest
  simp [nextCommand, found]

/-- After one worker has moved, what is found at a worker is where it moved
to, or what was there before. -/
theorem update_cases {Value : Type} [DecidableEq Worker] (phases : Worker → Option Value)
    (worker other : Worker) (phase : Option Value) (found : Value)
    (lookup : Function.update phases worker phase other = some found) :
    other = worker ∧ phase = some found ∨ other ≠ worker ∧ phases other = some found := by
  by_cases same : other = worker
  · subst other
    rw [Function.update_self] at lookup
    exact Or.inl ⟨rfl, lookup⟩
  · rw [Function.update_of_ne same] at lookup
    exact Or.inr ⟨same, lookup⟩

/-- Phases of a call, computed from the commands it has executed. -/
structure Discipline (Worker Job Command Answer Phase : Type) where
  entry : Worker → Job → Phase
  allowed : Phase → Command → Prop
  next : Phase → Command → Answer → Phase

namespace Discipline
variable (discipline : Discipline Worker Job Command Answer Phase)

/-- Every command the program can issue from `phase` is allowed there, for
every answer to the commands before it, and it ends as `post` says. -/
def Follows (post : Phase → Result → Prop) :
    Phase → Program Command Answer Result → Prop
  | phase, .finish result => post phase result
  | phase, .issue command next =>
      discipline.allowed phase command ∧
        ∀ answer, Follows post (discipline.next phase command answer) (next answer)

@[simp] theorem follows_finish (post : Phase → Result → Prop) (phase : Phase) (result : Result) :
    discipline.Follows post phase (.finish result : Program Command Answer Result) ↔
      post phase result := Iff.rfl

@[simp] theorem follows_issue (post : Phase → Result → Prop) (phase : Phase) (command : Command)
    (next : Answer → Program Command Answer Result) :
    discipline.Follows post phase (.issue command next) ↔
      discipline.allowed phase command ∧
        ∀ answer, discipline.Follows post (discipline.next phase command answer) (next answer) :=
  Iff.rfl

theorem follows_bind (middle : Phase → Result → Prop) (post : Phase → Final → Prop)
    (program : Program Command Answer Result) (rest : Result → Program Command Answer Final)
    (phase : Phase) (first : discipline.Follows middle phase program)
    (second : ∀ phase result, middle phase result → discipline.Follows post phase (rest result)) :
    discipline.Follows post phase (program >>= rest) := by
  induction program generalizing phase with
  | finish result => exact second phase result first
  | issue command next ih =>
      exact ⟨first.1, fun answer => ih answer _ (first.2 answer)⟩

/-- A program all of whose commands leave the phase as it is. -/
theorem follows_steady (post : Phase → Result → Prop) (phase : Phase)
    (program : Program Command Answer Result)
    (issues : program.Issues fun command => discipline.allowed phase command ∧
      ∀ answer, discipline.next phase command answer = phase)
    (ends : ∀ result, post phase result) : discipline.Follows post phase program := by
  induction program with
  | finish result => exact ends result
  | issue command next ih =>
      obtain ⟨⟨allowed, stays⟩, later⟩ := issues
      refine ⟨allowed, fun answer => ?_⟩
      rw [stays answer]
      exact ih answer (later answer)

/-- Everything is allowed: for what holds whatever the programs issue. -/
def anything : Discipline Worker Job Command Answer Unit :=
  ⟨fun _ _ => (), fun _ _ => True, fun _ _ _ => ()⟩

theorem anything_follows (program : Program Command Answer Result) :
    (anything : Discipline Worker Job Command Answer Unit).Follows (fun _ _ => True) ()
      program := by
  induction program with
  | finish result => exact trivial
  | issue command next ih => exact ⟨trivial, ih⟩

/-- Some commands are allowed throughout. -/
def only (allowed : Command → Prop) : Discipline Worker Job Command Answer Unit :=
  ⟨fun _ _ => (), fun _ => allowed, fun _ _ _ => ()⟩

theorem only_follows (allowed : Command → Prop) (program : Program Command Answer Result)
    (issues : program.Issues allowed) :
    (only allowed : Discipline Worker Job Command Answer Unit).Follows (fun _ _ => True) ()
      program := by
  induction program with
  | finish result => exact trivial
  | issue command next ih => exact ⟨issues.1, fun answer => ih answer (issues.2 answer)⟩

/-- The same discipline with phases that also remember the executed commands. -/
def remember : Discipline Worker Job Command Answer (Phase × List (Command × Answer)) where
  entry worker job := (discipline.entry worker job, [])
  allowed phase command := discipline.allowed phase.1 command
  next phase command answer :=
    (discipline.next phase.1 command answer, phase.2 ++ [(command, answer)])

theorem remember_follows (post : Phase → Result → Prop) (phase : Phase)
    (done : List (Command × Answer)) (program : Program Command Answer Result)
    (follows : discipline.Follows post phase program) :
    discipline.remember.Follows (fun remembered => post remembered.1) (phase, done) program := by
  induction program generalizing phase done with
  | finish result => exact follows
  | issue command next ih =>
      exact ⟨follows.1, fun answer => ih answer _ _ (follows.2 answer)⟩

def phaseOf (worker : Worker) (call : Running Job Command Answer Result) : Phase :=
  call.done.foldl (fun phase sent => discipline.next phase sent.1 sent.2)
    (discipline.entry worker call.job)

def phases (pool : Pool Worker Job Command Answer Result State) (worker : Worker) :
    Option Phase :=
  (pool.running worker).map (discipline.phaseOf worker)

theorem phases_running (pool : Pool Worker Job Command Answer Result State) (worker : Worker)
    (call : Running Job Command Answer Result) (running : pool.running worker = some call) :
    discipline.phases pool worker = some (discipline.phaseOf worker call) := by
  rw [phases, running, Option.map_some]

theorem remember_phaseOf (worker : Worker) (call : Running Job Command Answer Result) :
    discipline.remember.phaseOf worker call = (discipline.phaseOf worker call, call.done) := by
  -- The fold is generalized over where it starts: both components move.
  suffices fold : ∀ (more : List (Command × Answer)) (phase : Phase)
      (done : List (Command × Answer)),
      more.foldl (fun phase sent => discipline.remember.next phase sent.1 sent.2) (phase, done) =
        (more.foldl (fun phase sent => discipline.next phase sent.1 sent.2) phase,
          done ++ more) from fold call.done _ []
  intro more
  induction more with
  | nil => simp
  | cons sent more ih =>
      intro phase done
      have rest := ih (discipline.next phase sent.1 sent.2) (done ++ [sent])
      rw [List.append_assoc, List.singleton_append] at rest
      exact rest

theorem remember_running (pool : Pool Worker Job Command Answer Result State) (worker : Worker)
    (call : Running Job Command Answer Result) (running : pool.running worker = some call) :
    discipline.remember.phases pool worker =
      some (discipline.phaseOf worker call, call.done) := by
  rw [phases_running discipline.remember pool worker call running, remember_phaseOf]

/-- A discipline whose phases are all that a call of its owner has executed. -/
def diary {Owner : Type} (owner : Worker → Owner)
    (allowed : Owner → List (Command × Answer) → Command → Prop) :
    Discipline Worker Job Command Answer (Owner × List (Command × Answer)) where
  entry worker _ := (owner worker, [])
  allowed phase := allowed phase.1 phase.2
  next phase command answer := (phase.1, phase.2 ++ [(command, answer)])

theorem diary_phaseOf {Owner : Type} (owner : Worker → Owner)
    (allowed : Owner → List (Command × Answer) → Command → Prop) (worker : Worker)
    (call : Running Job Command Answer Result) :
    (diary owner allowed : Discipline Worker Job Command Answer _).phaseOf worker call =
      (owner worker, call.done) := by
  suffices fold : ∀ done more : List (Command × Answer),
      more.foldl (fun phase sent => (phase.1, phase.2 ++ [(sent.1, sent.2)]))
        (owner worker, done) = (owner worker, done ++ more) from
    (fold [] call.done).trans (by rw [List.nil_append])
  intro done more
  induction more generalizing done with
  | nil => simp
  | cons sent more ih => rw [List.foldl_cons, ih, List.append_assoc, List.singleton_append]

/-- Every call in progress waits before a command and still follows the
discipline. -/
def Tracked (post : Phase → Result → Prop)
    (pool : Pool Worker Job Command Answer Result State) : Prop :=
  ∀ worker call, pool.running worker = some call →
    (∃ command next, call.rest = .issue command next) ∧
      discipline.Follows post (discipline.phaseOf worker call) call.rest

theorem tracked_allowed (post : Phase → Result → Prop)
    (pool : Pool Worker Job Command Answer Result State)
    (tracked : discipline.Tracked post pool) (worker : Worker) (phase : Phase)
    (found : discipline.phases pool worker = some phase) :
    ∃ command, discipline.allowed phase command := by
  obtain ⟨call, running, same⟩ := Option.map_eq_some_iff.mp found
  obtain ⟨⟨command, next, rest⟩, follows⟩ := tracked worker call running
  rw [rest, same] at follows
  exact ⟨command, follows.1⟩

section Rule
variable [DecidableEq Worker]
variable (machine : Machine Command Answer State)
variable (program : Worker → Job → Program Command Answer Result)
variable (post : Phase → Result → Prop)

theorem resume_tracked (pool : Pool Worker Job Command Answer Result State) (worker : Worker)
    (job : Job) (done : List (Command × Answer)) (rest : Program Command Answer Result)
    (tracked : discipline.Tracked post pool)
    (follows : discipline.Follows post (discipline.phaseOf worker ⟨job, done, rest⟩) rest) :
    discipline.Tracked post (resume pool worker job done rest) := by
  intro other call found
  cases rest with
  | finish result =>
      by_cases same : other = worker
      · subst other
        simp [resume] at found
      · exact tracked other call (by simpa [resume, same] using found)
  | issue command next =>
      by_cases same : other = worker
      · subst other
        simp only [resume, Function.update_self, Option.some.injEq] at found
        subst found
        exact ⟨⟨command, next, rfl⟩, follows⟩
      · exact tracked other call (by simpa [resume, same] using found)

/-- What one step of a schedule has to keep: `holds` speaks of the shared
state, the phases and the history, never of the programs. -/
structure Keeps
    (Meets : Pool Worker Job Command Answer Result State → Choice Worker Job → Prop)
    (holds : State → (Worker → Option Phase) →
      List (Event Worker Job Command Answer Result) → Prop) : Prop where
  begins : ∀ pool worker job, discipline.phases pool worker = none →
    Meets pool (.start worker job) →
    holds pool.shared (discipline.phases pool) pool.history →
    holds pool.shared
      (Function.update (discipline.phases pool) worker (some (discipline.entry worker job)))
      pool.history
  issues : ∀ (pool : Pool Worker Job Command Answer Result State) worker call command next,
    pool.running worker = some call → call.rest = .issue command next →
    discipline.allowed (discipline.phaseOf worker call) command →
    Meets pool (.advance worker) →
    holds pool.shared (discipline.phases pool) pool.history →
    holds (machine command pool.shared).2
      (Function.update (discipline.phases pool) worker
        (some (discipline.next (discipline.phaseOf worker call) command
          (machine command pool.shared).1)))
      (pool.history ++
        [.executed worker call.job call.done command (machine command pool.shared).1])
  returns : ∀ shared phases history worker job phase result,
    phases worker = some phase → post phase result →
    holds shared phases history →
    holds shared (Function.update phases worker none) (history ++ [.returned worker job result])

variable {discipline machine program post}
variable {Meets : Pool Worker Job Command Answer Result State → Choice Worker Job → Prop}
variable {holds : State → (Worker → Option Phase) →
  List (Event Worker Job Command Answer Result) → Prop}

/-- Returning is a step of its own on phases, although a schedule takes it
together with the command before it. -/
theorem resume_holds (keeps : discipline.Keeps machine post Meets holds)
    (pool : Pool Worker Job Command Answer Result State) (worker : Worker)
    (job : Job) (done : List (Command × Answer)) (rest : Program Command Answer Result)
    (follows : discipline.Follows post (discipline.phaseOf worker ⟨job, done, rest⟩) rest)
    (before : holds pool.shared
      (Function.update (discipline.phases pool) worker
        (some (discipline.phaseOf worker ⟨job, done, rest⟩))) pool.history) :
    holds (resume pool worker job done rest).shared
      (discipline.phases (resume pool worker job done rest))
      (resume pool worker job done rest).history := by
  cases rest with
  | finish result =>
      -- The phase is entered and left again within one choice of the schedule.
      have after := keeps.returns _ _ _ worker job _ result (by simp) follows before
      have same : discipline.phases (resume pool worker job done (.finish result)) =
          Function.update (Function.update (discipline.phases pool) worker
            (some (discipline.phaseOf worker ⟨job, done, .finish result⟩))) worker none := by
        funext other
        by_cases equal : other = worker
        · subst other; simp [resume, phases]
        · simp [resume, phases, equal]
      rw [same]
      exact after
  | issue command next =>
      have same : discipline.phases (resume pool worker job done (.issue command next)) =
          Function.update (discipline.phases pool) worker
            (some (discipline.phaseOf worker ⟨job, done, .issue command next⟩)) := by
        funext other
        by_cases equal : other = worker
        · subst other; simp [resume, phases]
        · simp [resume, phases, equal]
      rw [same]
      exact before

theorem step_keeps (keeps : discipline.Keeps machine post Meets holds)
    (obeys : ∀ pool worker job, Meets pool (.start worker job) →
      discipline.Follows post (discipline.entry worker job) (program worker job))
    (pool : Pool Worker Job Command Answer Result State) (choice : Choice Worker Job)
    (meets : Meets pool choice) (tracked : discipline.Tracked post pool)
    (before : holds pool.shared (discipline.phases pool) pool.history) :
    discipline.Tracked post (step machine program pool choice) ∧
      holds (step machine program pool choice).shared
        (discipline.phases (step machine program pool choice))
        (step machine program pool choice).history := by
  cases choice with
  | start worker job =>
      cases found : pool.running worker with
      | some call => simpa [step, found] using ⟨tracked, before⟩
      | none =>
          have follows := obeys pool worker job meets
          have absent : discipline.phases pool worker = none := by simp [phases, found]
          simp only [step, found]
          exact ⟨resume_tracked discipline post pool worker job [] _ tracked follows,
            resume_holds keeps pool worker job [] _ follows
              (keeps.begins pool worker job absent meets before)⟩
  | advance worker =>
      cases found : pool.running worker with
      | none => simpa [step, found] using ⟨tracked, before⟩
      | some call =>
          obtain ⟨job, done, rest⟩ := call
          have current := (tracked worker _ found).2
          cases rest with
          | finish result => simpa [step, found] using ⟨tracked, before⟩
          | issue command next =>
              have follows := current.2 (machine command pool.shared).1
              have after := keeps.issues pool worker _ command next found rfl current.1 meets before
              simp only [step, found]
              constructor
              · apply resume_tracked
                · exact tracked
                · simpa [phaseOf] using follows
              · apply resume_holds keeps
                · simpa [phaseOf] using follows
                · change holds (machine command pool.shared).2
                    (Function.update (discipline.phases pool) worker _) _
                  simpa [phaseOf] using after

/-- The rule for whole schedules: programs that follow the discipline and
steps that keep `holds` give `holds` in the state every schedule reaches. -/
theorem run_keeps (keeps : discipline.Keeps machine post Meets holds)
    (obeys : ∀ pool worker job, Meets pool (.start worker job) →
      discipline.Follows post (discipline.entry worker job) (program worker job))
    (pool : Pool Worker Job Command Answer Result State) (schedule : List (Choice Worker Job))
    (along : Along machine program Meets pool schedule)
    (tracked : discipline.Tracked post pool)
    (before : holds pool.shared (discipline.phases pool) pool.history) :
    discipline.Tracked post (runPool machine program pool schedule) ∧
      holds (runPool machine program pool schedule).shared
        (discipline.phases (runPool machine program pool schedule))
        (runPool machine program pool schedule).history := by
  induction schedule generalizing pool with
  | nil => exact ⟨tracked, before⟩
  | cons choice schedule ih =>
      obtain ⟨nextTracked, after⟩ :=
        step_keeps keeps obeys pool choice along.1 tracked before
      exact ih _ along.2 nextTracked after

/-- Along a schedule the calls in progress follow the discipline, so that a
condition on its choices may be replaced by what it says about such calls. -/
theorem along_tracked
    {More : Pool Worker Job Command Answer Result State → Choice Worker Job → Prop}
    (obeys : ∀ worker job,
      discipline.Follows post (discipline.entry worker job) (program worker job))
    (more : ∀ pool choice, discipline.Tracked post pool → Meets pool choice → More pool choice)
    (pool : Pool Worker Job Command Answer Result State) (schedule : List (Choice Worker Job))
    (along : Along machine program Meets pool schedule)
    (tracked : discipline.Tracked post pool) : Along machine program More pool schedule := by
  have nothing : discipline.Keeps machine post Meets fun _ _ _ => True :=
    ⟨fun _ _ _ _ _ _ => trivial, fun _ _ _ _ _ _ _ _ _ _ => trivial,
      fun _ _ _ _ _ _ _ _ _ _ => trivial⟩
  induction schedule generalizing pool with
  | nil => exact trivial
  | cons choice schedule ih =>
      obtain ⟨meets, later⟩ := along
      have next := step_keeps nothing (fun _ worker job _ => obeys worker job) pool choice meets
        tracked trivial
      exact ⟨more pool choice tracked meets, ih _ later next.1⟩

omit [DecidableEq Worker] in
theorem idle_tracked (shared : State) :
    discipline.Tracked post
      (idle shared : Pool Worker Job Command Answer Result State) := by
  intro worker call found
  simp [idle] at found

omit [DecidableEq Worker] in
theorem idle_phases (shared : State) :
    discipline.phases (idle shared : Pool Worker Job Command Answer Result State) =
      fun _ => none := by
  funext worker
  simp [phases, idle]

end Rule
end Discipline
end FPayNode.WorkerPool
