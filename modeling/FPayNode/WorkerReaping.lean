import Mathlib.Data.List.Count
import FPayNode.OutputStream
import FPayNode.WorkerRouting

/-!
`core/dispatcher/Worker.cpp` with the processes of its workers. The manager
starts a process for each worker, replaces the one whose channel fails, and
reaps those that have exited when a signal is read. The system calls are
commands; the kernel answers them from its table of the manager's children and
from choices that nothing here restricts.
-/

namespace FPayNode.WorkerReaping

open CommandProgram OutputStream
open WorkerRouting (WorkerStatus)

/-! The processes. -/

inductive ChildState where
  -- A killed process has not exited yet, and an exited one is not reaped yet.
  | running | killed | exited
  deriving DecidableEq

structure Child where
  pid : Int
  state : ChildState
  deriving DecidableEq

structure Kernel where
  children : List Child
  clock : Nat
  deriving DecidableEq

inductive Syscall where
  | socketpair
  | fcntl (fd : Int)
  | setsockopt (fd : Int)
  | close (fd : Int)
  | fork
  | kill (pid : Int)
  | waitpid
  deriving DecidableEq

/-- What a call returns; `ends` is what a `socketpair` fills in. -/
structure Answer where
  value : Int
  ends : Int × Int
  deriving DecidableEq

/-- What the kernel is free to decide in one call. -/
structure Choice where
  fails : Bool
  number : Nat
  ends : Int × Int

/-- The pid of a new process: the first one behind a number that is not in use. -/
def freePid (number : Nat) (children : List Child) : Int :=
  (((List.range' (number + 1) (children.length + 1)).map Int.ofNat).find?
    fun pid => pid ∉ children.map Child.pid).getD 0

def exitedAll (children : List Child) : List Child :=
  children.filter fun child => child.state = .exited

def sigkill (pid : Int) (children : List Child) : List Child :=
  children.map fun child =>
    if child.pid = pid ∧ child.state = .running then { child with state := .killed } else child

/-- A process exits, by itself or because it was killed. -/
def exits (pid : Int) (children : List Child) : List Child :=
  children.map fun child => if child.pid = pid then { child with state := .exited } else child

/-- `fork` as its caller sees it, and `waitpid` of any child without waiting. -/
def respond (choice : Choice) : Syscall → List Child → Int × List Child
  | .socketpair, children | .fcntl _, children | .setsockopt _, children =>
      (if choice.fails then -1 else 0, children)
  | .close _, children => (0, children)
  | .fork, children =>
      if choice.fails then (-1, children)
      else (freePid choice.number children, ⟨freePid choice.number children, .running⟩ :: children)
  | .kill pid, children => (0, sigkill pid children)
  | .waitpid, children =>
      match (exitedAll children)[choice.number % (exitedAll children).length]? with
      | some child => (child.pid, children.erase child)
      | none => (if children = [] then -1 else 0, children)

def kernel (choices : Nat → Choice) : Machine Syscall Answer Kernel := fun call before =>
  let answered := respond (choices before.clock) call before.children
  (⟨answered.1, (choices before.clock).ends⟩, ⟨answered.2, before.clock + 1⟩)

abbrev Calls := Program Syscall Answer

/-! The workers. -/

structure Worker where
  _id : Nat
  _channel : Int × Int
  _pid : Int
  _status : WorkerStatus
  deriving DecidableEq

/-- In the process of the manager; the new one goes on with `exec`. -/
def Worker.start (worker : Worker) : Calls (Bool × Worker) :=
  let worker := { worker with _status := .kStatusInit }
  .issue .socketpair fun pair =>
    if pair.value < 0 then .finish (false, worker)
    else
      let worker := { worker with _channel := pair.ends }
      .issue (.fcntl worker._channel.1) fun flagged =>
        if flagged.value = -1 then .finish (false, worker)
        else
          .issue (.setsockopt worker._channel.1) fun sized =>
            if sized.value = -1 then .finish (false, worker)
            else
              .issue .fork fun pid =>
                if pid.value > 0 then
                  .issue (.close worker._channel.2) fun _ =>
                    .finish (true, { worker with
                      _status := .kStatusOK, _pid := pid.value, _channel.2 := -1 })
                else
                  .issue (.close worker._channel.1) fun _ =>
                    .issue (.close worker._channel.2) fun _ =>
                      .finish (false, { worker with
                        _status := .kStatusUnknown, _channel := (-1, -1) })

def Worker.restart (worker : Worker) : Calls (Bool × Worker) :=
  if worker._status = .kStatusInit ∨ worker._status = .kStatusUnknown then .finish (false, worker)
  else
    .issue (.close worker._channel.1) fun _ =>
      .issue (.kill worker._pid) fun _ => do
        let started ← Worker.start
          { worker with _channel.1 := -1, _status := .kStatusUnknown, _pid := -1 }
        if started.1 then .finish (true, { started.2 with _status := .kStatusOK })
        else .finish (false, started.2)

/-! The manager. -/

/-- The workers of some places one after another; a failed start is logged. -/
def startAll : List Nat → List Worker → Calls (List Worker)
  | [], workers => .finish workers
  | i :: rest, workers => do
      let started ← Worker.start ⟨i, (0, 0), -1, .kStatusInit⟩
      startAll rest (workers ++ [started.2])

def startWorker (numWorker : UInt8) : Calls (List Worker) :=
  startAll (List.range numWorker.toNat) []

/-- `dispatch` on the worker it has chosen; `ret` is what `sendFd` returned. -/
def dispatch (i : Nat) (ret : Int) (workers : List Worker) : Calls (List Worker) :=
  match workers[i]? with
  | some worker =>
      if worker._status = .kStatusOK ∧ ret ≤ 0 then do
        let restarted ← worker.restart
        .finish (workers.set i restarted.2)
      else .finish workers
  | none => .finish workers

/-- The worker, with its place. -/
def findWorker (workers : List Worker) (pid : Int) : Option (Worker × Nat) :=
  workers.zipIdx.find? fun entry => entry.1._pid = pid

/-- The rounds of `onEmit`. -/
def onEmitLoop : Nat → List Worker → Calls (List Worker)
  | 0, workers => .finish workers
  | loop + 1, workers =>
      .issue .waitpid fun pid =>
        if pid.value ≤ 0 then .finish workers
        else
          match findWorker workers pid.value with
          | none => onEmitLoop loop workers
          | some (worker, i) => do
              let restarted ← Worker.restart { worker with _status := .kStatusError }
              onEmitLoop loop (workers.set i restarted.2)

/-- The signal is only logged. -/
def onEmit (_sig : UInt32) (workers : List Worker) : Calls (List Worker) := onEmitLoop 3 workers

/-- `SignalHandler::doEvent`, where the manager is the one watcher. The first
entry of the buffer is emitted whatever was read into it. -/
def doEvent (event first : UInt32) (rest : List UInt32) (workers : List Worker) :
    Calls (List Worker) :=
  if event = EVENT_READ then (first :: rest).foldlM (fun workers sig => onEmit sig workers) workers
  else .finish workers

/-! The system. -/

structure System where
  workers : List Worker
  kernel : Kernel
  deriving DecidableEq

inductive Event where
  | exits (pid : Int)
  | dispatch (i : Nat) (ret : Int)
  | signal (event first : UInt32) (rest : List UInt32)

section System
variable (choices : Nat → Choice)

def execute (program : Calls (List Worker)) (before : Kernel) : System :=
  let left := run (kernel choices) program before
  ⟨left.1, left.2⟩

/-- Children exit between the manager's events. -/
def step (system : System) : Event → System
  | .exits pid =>
      { system with kernel.children := exits pid system.kernel.children }
  | .dispatch i ret => execute choices (dispatch i ret system.workers) system.kernel
  | .signal event first rest =>
      execute choices (doEvent event first rest system.workers) system.kernel

def systemAfter (numWorker : UInt8) (events : List Event) : System :=
  events.foldl (step choices) (execute choices (startWorker numWorker) ⟨[], 0⟩)

end System

/-- What handling a signal should do. A worker whose process had exited has one
that runs. -/
structure Handled (before after : System) : Prop where
  reaped : ∀ child ∈ before.kernel.children, child.state = .exited →
    child ∉ after.kernel.children
  restarted : ∀ (i : Nat) (worker : Worker), before.workers[i]? = some worker →
    ⟨worker._pid, .exited⟩ ∈ before.kernel.children →
    ∃ replaced, after.workers[i]? = some replaced ∧ replaced._status = .kStatusOK ∧
      ⟨replaced._pid, .running⟩ ∈ after.kernel.children
  distinct : (after.workers.map Worker._pid).Nodup

/-! The kernel. -/

def Fresh (pid : Int) (children : List Child) : Prop :=
  0 < pid ∧ pid ∉ children.map Child.pid

theorem freePid_fresh (number : Nat) (children : List Child) :
    Fresh (freePid number children) children := by
  rw [freePid]
  cases found : ((List.range' (number + 1) (children.length + 1)).map Int.ofNat).find?
      fun pid => pid ∉ children.map Child.pid with
  | some pid =>
      have free := List.find?_some found
      obtain ⟨offered, member, rfl⟩ := List.mem_map.mp (List.mem_of_find?_eq_some found)
      have behind := (List.mem_range'_1.mp member).1
      exact ⟨Int.natCast_pos.mpr (by omega), by simpa using free⟩
  | none =>
      -- All of them would be in use, and there are more of them than children.
      have inside : (List.range' (number + 1) (children.length + 1)).map Int.ofNat ⊆
          children.map Child.pid :=
        fun pid member => by simpa using List.find?_eq_none.mp found pid member
      have apart : ((List.range' (number + 1) (children.length + 1)).map Int.ofNat).Nodup :=
        List.Nodup.map (fun _ _ same => Int.ofNat.inj same) List.nodup_range'
      have fits := apart.length_le_of_subset inside
      simp at fits

theorem map_pids (change : Child → Child) (same : ∀ child, (change child).pid = child.pid)
    (children : List Child) : (children.map change).map Child.pid = children.map Child.pid := by
  rw [List.map_map]
  exact List.map_congr_left fun child _ => same child

@[simp] theorem sigkill_pids (pid : Int) (children : List Child) :
    (sigkill pid children).map Child.pid = children.map Child.pid :=
  map_pids _ (fun child => by split <;> rfl) children

@[simp] theorem exits_pids (pid : Int) (children : List Child) :
    (exits pid children).map Child.pid = children.map Child.pid :=
  map_pids _ (fun child => by split <;> rfl) children

/-- Killing takes time: no process has exited by it. -/
theorem exitedAll_sigkill (pid : Int) (children : List Child) :
    exitedAll (sigkill pid children) = exitedAll children := by
  induction children with
  | nil => rfl
  | cons child children ih =>
      rw [sigkill, exitedAll, exitedAll] at ih
      rw [sigkill, exitedAll, exitedAll, List.map_cons, List.filter_cons, List.filter_cons, ih]
      split
      next hit => simp [hit.2]
      · rfl

theorem mem_sigkill (pid : Int) (children : List Child) (child : Child) (member : child ∈ children)
    (other : child.pid ≠ pid) : child ∈ sigkill pid children :=
  List.mem_map.mpr ⟨child, member, if_neg fun hit => other hit.1⟩

/-! A start. -/

/-- What a start leaves, if no call fails: a new child, which is the worker's. -/
structure Forked (before : List Child) (left : (Bool × Worker) × Kernel) : Prop where
  status : left.1.2._status = .kStatusOK
  fresh : Fresh left.1.2._pid before
  children : left.2.children = ⟨left.1.2._pid, .running⟩ :: before

section Starts
variable (choices : Nat → Choice) (succeed : ∀ time, (choices time).fails = false)
include succeed

theorem start_run (worker : Worker) (before : Kernel) :
    (run (kernel choices) worker.start before).1.1 = true ∧
      Forked before.children (run (kernel choices) worker.start before) := by
  have fresh := freePid_fresh (choices (before.clock + 1 + 1 + 1)).number before.children
  have positive := fresh.1
  simp only [Worker.start, run_issue, kernel, respond, succeed, Bool.false_eq_true, ↓reduceIte,
    Int.lt_irrefl, (by decide : (0 : Int) ≠ -1), gt_iff_lt, positive, run_finish]
  exact ⟨trivial, rfl, fresh, rfl⟩

theorem restart_run (worker : Worker) (before : Kernel)
    (process : worker._status = .kStatusOK ∨ worker._status = .kStatusError) :
    Forked (sigkill worker._pid before.children) (run (kernel choices) worker.restart before) := by
  have ready : ¬ (worker._status = .kStatusInit ∨ worker._status = .kStatusUnknown) := by
    rcases process with is | is <;> simp [is]
  rw [Worker.restart, if_neg ready, run_issue, run_issue, run_bind]
  obtain ⟨started, forked⟩ := start_run choices succeed
    { worker with _channel.1 := -1, _status := .kStatusUnknown, _pid := -1 }
    ⟨sigkill worker._pid before.children, before.clock + 1 + 1⟩
  rw [kernel, kernel, respond, respond, if_pos started]
  exact ⟨rfl, forked.fresh, forked.children⟩

end Starts

/-! Whether or not its calls succeed, a restart does to the status what routing
takes it to do. -/

section Statuses
variable (choices : Nat → Choice) (worker : Worker) (before : Kernel)

def Worker.routed (worker : Worker) : WorkerRouting.Worker := ⟨worker._id, worker._status⟩

theorem start_routed :
    let left := (run (kernel choices) worker.start before).1
    left.1 = true ∧ left.2.routed = ⟨worker._id, .kStatusOK⟩ ∨
      left.1 = false ∧ (left.2.routed = ⟨worker._id, .kStatusInit⟩ ∨
        left.2.routed = ⟨worker._id, .kStatusUnknown⟩) := by
  simp only [Worker.start, run_issue]
  split
  · exact .inr ⟨rfl, .inl rfl⟩
  · simp only [run_issue]
    split
    · exact .inr ⟨rfl, .inl rfl⟩
    · simp only [run_issue]
      split
      · exact .inr ⟨rfl, .inl rfl⟩
      · simp only [run_issue]
        split
        · exact .inl ⟨rfl, rfl⟩
        · exact .inr ⟨rfl, .inr rfl⟩

theorem restart_routed :
    ∃ started, (run (kernel choices) worker.restart before).1.2.routed =
      worker.routed.restart started := by
  rw [Worker.restart]
  split
  next down =>
    refine ⟨.forked, ?_⟩
    rcases down with is | is <;> simp [WorkerRouting.Worker.restart, Worker.routed, is]
  next up =>
    have process : worker._status = .kStatusOK ∨ worker._status = .kStatusError := by
      cases is : worker._status <;> simp [is] at up ⊢
    rw [run_issue, run_issue, run_bind]
    obtain ⟨started, is⟩ | ⟨failed, is | is⟩ := start_routed choices
        { worker with _channel.1 := -1, _status := .kStatusUnknown, _pid := -1 }
        (kernel choices (.kill worker._pid)
          (kernel choices (.close worker._channel.1) before).2).2
    · refine ⟨.forked, ?_⟩
      rw [if_pos started, run_finish]
      have restarted : worker.routed.restart .forked = ⟨worker._id, .kStatusOK⟩ := by
        rcases process with up | up <;> simp [WorkerRouting.Worker.restart, Worker.routed, up]
      rw [restarted]
      exact congrArg (fun other => WorkerRouting.Worker.mk other._id .kStatusOK) is
    · refine ⟨.channelFailed, ?_⟩
      rw [if_neg (by simp [failed]), run_finish, is]
      rcases process with up | up <;> simp [WorkerRouting.Worker.restart, Worker.routed, up]
    · refine ⟨.forkFailed, ?_⟩
      rw [if_neg (by simp [failed]), run_finish, is]
      rcases process with up | up <;> simp [WorkerRouting.Worker.restart, Worker.routed, up]

end Statuses

/-! What holds between the manager's events. -/

structure Sound (workers : List Worker) (children : List Child) : Prop where
  distinct : (workers.map Worker._pid).Nodup
  pids : (children.map Child.pid).Nodup
  positive : ∀ child ∈ children, 0 < child.pid
  status : ∀ worker ∈ workers, worker._status = .kStatusOK
  -- Only a process that has been replaced is killed.
  owned : ∀ worker ∈ workers, ∃ child ∈ children, child.pid = worker._pid ∧ child.state ≠ .killed

namespace Sound
variable {workers : List Worker} {children : List Child} (sound : Sound workers children)
include sound

theorem fork_positive {pid : Int} (fresh : Fresh pid children) :
    ∀ child ∈ (⟨pid, .running⟩ :: children : List Child), 0 < child.pid := by
  intro child member
  rcases List.mem_cons.mp member with rfl | older
  · exact fresh.1
  · exact sound.positive child older

/-- A worker keeps its process while children are added. -/
theorem fork_owned {pid : Int} {worker : Worker} (member : worker ∈ workers) :
    ∃ child ∈ (⟨pid, .running⟩ :: children : List Child),
      child.pid = worker._pid ∧ child.state ≠ .killed := by
  obtain ⟨child, held, owns⟩ := sound.owned worker member
  exact ⟨child, List.mem_cons_of_mem _ held, owns⟩

theorem unused {pid : Int} (fresh : Fresh pid children) : pid ∉ workers.map Worker._pid := by
  intro used
  obtain ⟨worker, member, rfl⟩ := List.mem_map.mp used
  obtain ⟨child, held, same, _⟩ := sound.owned worker member
  exact fresh.2 (same ▸ List.mem_map_of_mem held)

theorem append (added : Worker) (fresh : Fresh added._pid children)
    (status : added._status = .kStatusOK) :
    Sound (workers ++ [added]) (⟨added._pid, .running⟩ :: children) where
  distinct := by
    rw [List.map_append, List.map_singleton, List.nodup_append]
    refine ⟨sound.distinct, List.nodup_singleton _, fun pid used other last same => ?_⟩
    rw [List.mem_singleton.mp last] at same
    exact sound.unused fresh (same ▸ used)
  pids := List.nodup_cons.mpr ⟨fresh.2, sound.pids⟩
  positive := sound.fork_positive fresh
  status := by
    intro worker member
    rcases List.mem_append.mp member with older | last
    · exact sound.status worker older
    · exact List.mem_singleton.mp last ▸ status
  owned := by
    intro worker member
    rcases List.mem_append.mp member with older | last
    · exact sound.fork_owned older
    · exact ⟨_, List.mem_cons_self, by rw [List.mem_singleton.mp last], ChildState.noConfusion⟩

/-- Nothing happens to the workers when a child without a worker goes. -/
theorem fewer (left : List Child) (sub : left.Sublist children)
    (kept : ∀ child ∈ children, child.pid ∈ workers.map Worker._pid → child ∈ left) :
    Sound workers left where
  distinct := sound.distinct
  pids := sound.pids.sublist (sub.map _)
  positive := fun child member => sound.positive child (sub.subset member)
  status := sound.status
  owned := by
    intro worker member
    obtain ⟨child, held, same, alive⟩ := sound.owned worker member
    exact ⟨child, kept child held (same ▸ List.mem_map_of_mem member), same, alive⟩

theorem exits (pid : Int) : Sound workers (exits pid children) where
  distinct := sound.distinct
  pids := by rw [exits_pids]; exact sound.pids
  positive := by
    intro child member
    obtain ⟨before, held, rfl⟩ := List.mem_map.mp member
    split <;> exact sound.positive before held
  status := sound.status
  owned := by
    intro worker member
    obtain ⟨child, held, same, alive⟩ := sound.owned worker member
    refine ⟨_, List.mem_map_of_mem held, ?_, ?_⟩
    · split <;> exact same
    · split
      · exact ChildState.noConfusion
      · exact alive

theorem apart {i j : Nat} {worker other : Worker} (held : workers[i]? = some worker)
    (there : workers[j]? = some other) (different : i ≠ j) : other._pid ≠ worker._pid := by
  intro same
  have inside : i < (workers.map Worker._pid).length := by
    rw [List.length_map]
    exact (List.getElem?_eq_some_iff.mp held).1
  apply different
  apply (List.getElem?_inj inside sound.distinct).mp
  rw [List.getElem?_map, List.getElem?_map, held, there, Option.map_some, Option.map_some, same]

/-- A worker gets a new process. Of its old one there may be anything left. -/
theorem replace {i : Nat} {worker : Worker} (held : workers[i]? = some worker)
    (left : List Child) (pids : (left.map Child.pid).Sublist (children.map Child.pid))
    (kept : ∀ child ∈ children, child.pid ≠ worker._pid → child ∈ left) (replaced : Worker)
    (fresh : Fresh replaced._pid left) (status : replaced._status = .kStatusOK) :
    Sound (workers.set i replaced) (⟨replaced._pid, .running⟩ :: left) where
  distinct := by
    rw [List.map_set]
    by_cases again : replaced._pid = worker._pid
    · -- The kernel may give a pid again once it is reaped.
      obtain ⟨inside, is⟩ := List.getElem?_eq_some_iff.mp held
      have mapped : i < (workers.map Worker._pid).length := by rwa [List.length_map]
      have unchanged : (workers.map Worker._pid)[i] = worker._pid := by rw [List.getElem_map, is]
      rw [again, ← unchanged, List.set_getElem_self]
      exact sound.distinct
    · apply sound.distinct.set
      intro used
      obtain ⟨other, member, same⟩ := List.mem_map.mp used
      obtain ⟨child, there, owns, _⟩ := sound.owned other member
      have remains := kept child there fun is => again (same.symm.trans (owns.symm.trans is))
      exact fresh.2 (same ▸ owns ▸ List.mem_map_of_mem remains)
  pids := List.nodup_cons.mpr ⟨fresh.2, sound.pids.sublist pids⟩
  positive := by
    intro child member
    rcases List.mem_cons.mp member with rfl | older
    · exact fresh.1
    · obtain ⟨before, there, same⟩ :=
        List.mem_map.mp (pids.subset (List.mem_map_of_mem older))
      exact same ▸ sound.positive before there
  status := by
    intro other member
    rcases List.mem_or_eq_of_mem_set member with older | rfl
    · exact sound.status other older
    · exact status
  owned := by
    intro other member
    obtain ⟨j, there⟩ := List.mem_iff_getElem?.mp member
    rw [List.getElem?_set] at there
    split at there
    · next same =>
        split at there
        · cases there
          exact ⟨_, List.mem_cons_self, rfl, ChildState.noConfusion⟩
        · cases there
    · next different =>
        obtain ⟨child, member, owns, alive⟩ := sound.owned other (List.mem_of_getElem? there)
        have remains := kept child member
          (owns.trans_ne (sound.apart held there different))
        exact ⟨child, List.mem_cons_of_mem _ remains, owns, alive⟩

/-- The same for `restart`, when at most the worker's own process was reaped. -/
theorem restart {i : Nat} {worker : Worker} (held : workers[i]? = some worker)
    (left : List Child) (sub : left.Sublist children)
    (kept : ∀ child ∈ children, child.pid ≠ worker._pid → child ∈ left)
    (restarted : (Bool × Worker) × Kernel) (forked : Forked (sigkill worker._pid left) restarted) :
    Sound (workers.set i restarted.1.2) restarted.2.children := by
  rw [forked.children]
  apply sound.replace held _ _ _ _ forked.fresh forked.status
  · rw [sigkill_pids]
    exact sub.map _
  · exact fun child member other => mem_sigkill _ _ _ (kept child member other) other

end Sound

/-! A signal. -/

theorem exitedAll_erase (children : List Child) (child : Child)
    (member : child ∈ exitedAll children) :
    (exitedAll (children.erase child)).length = (exitedAll children).length - 1 := by
  obtain ⟨held, exited⟩ := List.mem_filter.mp member
  rw [exitedAll, exitedAll, ← List.countP_eq_length_filter, ← List.countP_eq_length_filter,
    List.countP_erase, if_pos ⟨held, exited⟩]

theorem exitedAll_forked (before : List Child) (left : (Bool × Worker) × Kernel)
    (forked : Forked before left) : exitedAll left.2.children = exitedAll before := by
  rw [forked.children, exitedAll, List.filter_cons_of_neg (by simp), exitedAll]

/-- What some rounds of reaping do. -/
structure Reaped (rounds : Nat) (before after : System) : Prop where
  sound : Sound after.workers after.kernel.children
  length : after.workers.length = before.workers.length
  count : (exitedAll after.kernel.children).length =
    (exitedAll before.kernel.children).length - rounds
  fewer : (exitedAll after.kernel.children).Sublist (exitedAll before.kernel.children)

theorem Reaped.trans {first second : Nat} {before middle after : System}
    (one : Reaped first before middle) (two : Reaped second middle after) :
    Reaped (first + second) before after where
  sound := two.sound
  length := two.length.trans one.length
  count := by rw [two.count, one.count, Nat.sub_sub]
  fewer := two.fewer.trans one.fewer

/-- With nothing to reap any number of rounds is the same as none. -/
theorem Reaped.idle (rounds : Nat) (before : System) (after : Kernel)
    (sound : Sound before.workers before.kernel.children)
    (same : after.children = before.kernel.children)
    (none : rounds = 0 ∨ exitedAll before.kernel.children = []) :
    Reaped rounds before ⟨before.workers, after⟩ where
  sound := same ▸ sound
  length := rfl
  count := by rcases none with none | none <;> simp [none, same]
  fewer := by rw [same]

section Rounds
variable (before : System) (sound : Sound before.workers before.kernel.children)
variable (child : Child) (member : child ∈ exitedAll before.kernel.children)
include sound member

/-- The child of a worker that has another one by now. -/
theorem Reaped.unknown (after : Kernel) (unknown : child.pid ∉ before.workers.map Worker._pid)
    (reaped : after.children = before.kernel.children.erase child) :
    Reaped 1 before ⟨before.workers, after⟩ where
  sound := by
    rw [reaped]
    apply sound.fewer _ List.erase_sublist
    intro other held owned
    have apart : other ≠ child := fun same => unknown (by rwa [← same])
    exact (List.mem_erase_of_ne apart).mpr held
  length := rfl
  count := by rw [reaped, exitedAll_erase _ _ member]
  fewer := by rw [reaped]; exact List.erase_sublist.filter _

theorem Reaped.restarted (i : Nat) (worker : Worker) (held : before.workers[i]? = some worker)
    (owns : worker._pid = child.pid) (left : (Bool × Worker) × Kernel)
    (forked : Forked (sigkill worker._pid (before.kernel.children.erase child)) left) :
    Reaped 1 before ⟨before.workers.set i left.1.2, left.2⟩ where
  sound := by
    apply sound.restart held _ List.erase_sublist _ left forked
    intro other there different
    have apart : other ≠ child := fun same => different (by rw [same, owns])
    exact (List.mem_erase_of_ne apart).mpr there
  length := List.length_set
  count := by rw [exitedAll_forked _ left forked, exitedAll_sigkill, exitedAll_erase _ _ member]
  fewer := by
    rw [exitedAll_forked _ left forked, exitedAll_sigkill]
    exact List.erase_sublist.filter _

end Rounds

theorem findWorker_some (workers : List Worker) (pid : Int) (worker : Worker) (i : Nat)
    (found : findWorker workers pid = some (worker, i)) :
    workers[i]? = some worker ∧ worker._pid = pid := by
  have member := List.mem_of_find?_eq_some found
  have same := List.find?_some found
  exact ⟨List.mk_mem_zipIdx_iff_getElem?.mp member, by simpa using same⟩

theorem findWorker_none (workers : List Worker) (pid : Int)
    (found : findWorker workers pid = none) : pid ∉ workers.map Worker._pid := by
  intro used
  obtain ⟨worker, member, same⟩ := List.mem_map.mp used
  obtain ⟨i, held⟩ := List.mem_iff_getElem?.mp member
  have other := List.find?_eq_none.mp found (worker, i) (List.mk_mem_zipIdx_iff_getElem?.mpr held)
  exact other (by simpa using same)

section Signals
variable (choices : Nat → Choice)

theorem waitpid_cases (before : Kernel) (positive : ∀ child ∈ before.children, 0 < child.pid) :
    let left := kernel choices .waitpid before
    (exitedAll before.children = [] ∧ left.1.value ≤ 0 ∧ left.2.children = before.children) ∨
      ∃ child ∈ exitedAll before.children, left.1.value = child.pid ∧ 0 < child.pid ∧
        left.2.children = before.children.erase child := by
  intro left
  cases picked : (exitedAll before.children)[
      (choices before.clock).number % (exitedAll before.children).length]? with
  | none =>
      have beyond := List.getElem?_eq_none_iff.mp picked
      have empty : exitedAll before.children = [] := by
        by_contra some
        exact absurd (Nat.mod_lt _ (List.length_pos_iff.mpr some)) (Nat.not_lt.mpr beyond)
      refine .inl ⟨empty, ?_, ?_⟩
      · simp only [left, kernel, respond, picked]
        split <;> decide
      · simp only [left, kernel, respond, picked]
  | some child =>
      have member := List.mem_of_getElem? picked
      refine .inr ⟨child, member, ?_, positive child (List.mem_filter.mp member).1, ?_⟩
      · simp only [left, kernel, respond, picked]
      · simp only [left, kernel, respond, picked]

variable (succeed : ∀ time, (choices time).fails = false)
include succeed

theorem onEmitLoop_reaps (loop : Nat) (system : System)
    (sound : Sound system.workers system.kernel.children) :
    Reaped loop system (execute choices (onEmitLoop loop system.workers) system.kernel) := by
  induction loop generalizing system with
  | zero => exact Reaped.idle 0 system system.kernel sound rfl (.inl rfl)
  | succ loop ih =>
      rw [onEmitLoop, execute, run_issue]
      generalize waited : kernel choices .waitpid system.kernel = left
      have cases := waitpid_cases choices system.kernel sound.positive
      rw [waited] at cases
      obtain ⟨none, nothing, same⟩ | ⟨child, member, is, positive, reaped⟩ := cases
      · rw [if_pos nothing]
        exact Reaped.idle _ system left.2 sound same (.inr none)
      · rw [if_neg (is ▸ Int.not_le.mpr positive), is, Nat.add_comm]
        cases found : findWorker system.workers child.pid with
        | none =>
            have unknown := findWorker_none _ _ found
            have one := Reaped.unknown system sound child member left.2 unknown reaped
            exact one.trans (ih _ one.sound)
        | some entry =>
            obtain ⟨worker, i⟩ := entry
            obtain ⟨held, owns⟩ := findWorker_some _ _ _ _ found
            have forked := restart_run choices succeed { worker with _status := .kStatusError }
              left.2 (.inr rfl)
            rw [reaped] at forked
            have one := Reaped.restarted system sound child member i worker held owns _ forked
            simp only [run_bind]
            exact one.trans (ih _ one.sound)

theorem signals_reap (signals : List UInt32) (system : System)
    (sound : Sound system.workers system.kernel.children) :
    Reaped (3 * signals.length) system (execute choices
      (signals.foldlM (fun workers sig => onEmit sig workers) system.workers) system.kernel) := by
  induction signals generalizing system with
  | nil => exact Reaped.idle 0 system system.kernel sound rfl (.inl rfl)
  | cons sig signals ih =>
      have one := onEmitLoop_reaps choices succeed 3 system sound
      rw [List.foldlM_cons, execute, run_bind, List.length_cons, Nat.mul_succ, Nat.add_comm]
      exact one.trans (ih _ one.sound)

/-! Every state of the manager. -/

theorem startAll_sound (places : List Nat) (system : System)
    (sound : Sound system.workers system.kernel.children) :
    let after := execute choices (startAll places system.workers) system.kernel
    Sound after.workers after.kernel.children := by
  induction places generalizing system with
  | nil => exact sound
  | cons i places ih =>
      obtain ⟨_, forked⟩ := start_run choices succeed ⟨i, (0, 0), -1, .kStatusInit⟩ system.kernel
      have added := sound.append _ forked.fresh forked.status
      rw [← forked.children] at added
      rw [startAll, execute, run_bind]
      exact ih ⟨_, _⟩ added

theorem dispatch_sound (i : Nat) (ret : Int) (system : System)
    (sound : Sound system.workers system.kernel.children) :
    let after := execute choices (dispatch i ret system.workers) system.kernel
    Sound after.workers after.kernel.children := by
  rw [dispatch]
  split
  next worker held =>
    split
    next failed =>
      rw [execute, run_bind]
      exact sound.restart held _ (List.Sublist.refl _) (fun _ member _ => member) _
        (restart_run choices succeed worker system.kernel (.inl failed.1))
    · exact sound
  · exact sound

theorem step_sound (system : System) (event : Event)
    (sound : Sound system.workers system.kernel.children) :
    Sound (step choices system event).workers (step choices system event).kernel.children := by
  cases event with
  | exits pid => exact sound.exits pid
  | dispatch i ret => exact dispatch_sound choices succeed i ret system sound
  | signal event first rest =>
      rw [step, doEvent]
      split
      · exact (signals_reap choices succeed (first :: rest) system sound).sound
      · exact sound

theorem systemAfter_sound (numWorker : UInt8) (events : List Event) :
    let after := systemAfter choices numWorker events
    Sound after.workers after.kernel.children := by
  have empty : Sound [] [] := ⟨List.nodup_nil, List.nodup_nil, by simp, by simp, by simp⟩
  have begun := startAll_sound choices succeed (List.range numWorker.toNat) ⟨[], ⟨[], 0⟩⟩ empty
  rw [systemAfter, startWorker]
  generalize execute choices (startAll _ []) ⟨[], 0⟩ = system at begun
  induction events generalizing system with
  | nil => exact begun
  | cons event events ih => exact ih _ (step_sound choices succeed system event begun)

end Signals

/-- With all exited children reaped, every worker is there and has a process that
runs. -/
theorem Reaped.handled {rounds : Nat} {before after : System} (reaped : Reaped rounds before after)
    (enough : (exitedAll before.kernel.children).length ≤ rounds) : Handled before after := by
  have none : exitedAll after.kernel.children = [] := by
    rw [← List.length_eq_zero_iff, reaped.count, Nat.sub_eq_zero_of_le enough]
  have gone : ∀ child ∈ after.kernel.children, child.state ≠ .exited := by
    intro child member exited
    have left : child ∈ exitedAll after.kernel.children := List.mem_filter.mpr ⟨member, by simpa⟩
    rw [none] at left
    cases left
  refine ⟨fun child _ exited member => gone child member exited, ?_, reaped.sound.distinct⟩
  intro i worker held _
  have inside : i < after.workers.length := by
    rw [reaped.length]
    exact (List.getElem?_eq_some_iff.mp held).1
  have member : after.workers[i] ∈ after.workers := List.getElem_mem inside
  obtain ⟨⟨pid, state⟩, there, owns, alive⟩ := reaped.sound.owned _ member
  refine ⟨after.workers[i], List.getElem?_eq_getElem inside, reaped.sound.status _ member, ?_⟩
  rw [← owns]
  cases state with
  | running => exact there
  | killed => exact absurd rfl alive
  | exited => exact absurd rfl (gone _ there)

/-- Reading a signal restores the workers exactly when no more children have
exited than the rounds it gives to reap them: three for each signal that was
read. -/
theorem signal_handled_iff (choices : Nat → Choice)
    (succeed : ∀ time, (choices time).fails = false) (numWorker : UInt8) (events : List Event)
    (first : UInt32) (rest : List UInt32) :
    let before := systemAfter choices numWorker events
    Handled before (step choices before (.signal EVENT_READ first rest)) ↔
      (exitedAll before.kernel.children).length ≤ 3 * (rest.length + 1) := by
  intro before
  have reaped : Reaped (3 * (rest.length + 1)) before
      (step choices before (.signal EVENT_READ first rest)) :=
    signals_reap choices succeed (first :: rest) before
      (systemAfter_sound choices succeed numWorker events)
  refine ⟨fun handled => ?_, reaped.handled⟩
  by_contra more
  have some : 0 < (exitedAll
      (step choices before (.signal EVENT_READ first rest)).kernel.children).length := by
    rw [reaped.count]
    omega
  obtain ⟨child, left⟩ := List.exists_mem_of_length_pos some
  obtain ⟨there, exited⟩ := List.mem_filter.mp (reaped.fewer.subset left)
  exact handled.reaped child there (by simpa using exited) (List.mem_filter.mp left).1

/-- Choices of a kernel that counts its pids up. -/
def counting (time : Nat) : Choice := ⟨false, 100 + time, (3, 4)⟩

/-- The process that a failed dispatch has killed and replaced exits, and that of
another worker. -/
theorem signal_handled_iff_two :
    let before := systemAfter counting 3 [.dispatch 0 (-1), .exits 104, .exits 109]
    Handled before (step counting before (.signal EVENT_READ 17 [])) :=
  (signal_handled_iff counting (fun _ => rfl) 3 [.dispatch 0 (-1), .exits 104, .exits 109] 17
    []).mpr (by decide)

/-- The processes of four workers have exited when their one signal is read. That
of the second worker is left. -/
theorem fourth_exit_left :
    let before := systemAfter counting 4 [.exits 104, .exits 109, .exits 114, .exits 119]
    ¬ Handled before (step counting before (.signal EVENT_READ 17 [])) :=
  fun handled => handled.reaped ⟨109, .exited⟩ (by decide) rfl (by decide)

end FPayNode.WorkerReaping
