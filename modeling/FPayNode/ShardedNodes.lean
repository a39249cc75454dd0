import FPayNode.LayeredMachines
import FPayNode.ShardedCache

/-!
Node processes whose caches have several servers each. A process has a pool of
clients for every service it names, and all processes share the servers. What
they do interleaved, over connections that break, is what they do over services
of one server each, some of whose commands are lost or refused.
-/

namespace FPayNode.ShardedNodes

open CommandProgram DecimalText RedisServer RedisConnections ShardedCache LayeredMachines
open WorkerPool (Choice Event idle runPool)
open RedisCache (Effect Answer Calls Servers serve)

variable {Worker Job Result : Type}

/-- One command through `Dispatch`, as every operation sends it. -/
def dispatched (service : Bytes) (pool : Pool) (command : Command) :
    Connecting (Option (Answer × Pool)) :=
  keyed pool (keyOf command) .lost .lost (Program.perform (.redis service command)) id

theorem keyed_dispatched {Final : Type} (home : Nat → Nat) (state : ShardedCache.Chances × (Nat → Db))
    (pool : Pool) (service : Bytes) (command : Command) (next : Answer → Calls Result)
    (ends : Answer → Result) (unreached : Final) (unconnected : Result) (final : Result → Final)
    (stops : ∀ answer, next answer = .finish (ends answer))
    (missed : final (ends .lost) = unreached) :
    let left := run (servers home) (dispatched service pool command) state
    run (servers home) (keyed pool (keyOf command) unreached unconnected
        (.issue (.redis service command) next) final) state =
      (left.1.map fun (answer, pool) => (final (ends answer), pool), left.2) := by
  simp only [dispatched, keyed, onClient]
  split
  next client found =>
    have connects := ready_connects home (slotOf pool (keyOf command)) client state
    simp only [run_then]
    generalize run (servers home) (ready (slotOf pool (keyOf command)) client) state = left
      at connects
    obtain ⟨⟨reached, client⟩, middle⟩ := left
    cases reached with
    | false => simp [missed]
    | true =>
        have context : client._context = true := connects.context rfl
        simp only [↓reduceIte, run_then, RedisClient.call, context, Program.perform,
          RedisClient.onConnection, run_issue]
        cases (servers home (slotOf pool (keyOf command), .data command) middle).1 <;>
          simp [stops, RedisClient.onConnection]
  · rfl

structure Caches (Worker : Type) where
  pools : Worker → Bytes → Pool
  dbs : Bytes → Nat → Db
  chances : Chances

section Machine
variable [DecidableEq Worker] (throws : Bytes → Bool) (home : Bytes → Nat → Nat)

/-- The servers of a service, asked by one of the processes. -/
def sharded : Machine (Worker × Effect) Answer (Caches Worker)
  | (worker, .redis service command), caches =>
      let left := run (servers (home service))
        (dispatched service (caches.pools worker service) command)
        (caches.chances, caches.dbs service)
      match left.1 with
      | some (answer, pool) => (answer,
          { pools := Function.update caches.pools worker
              (Function.update (caches.pools worker) service pool)
            dbs := Function.update caches.dbs service left.2.2
            chances := left.2.1 })
      -- A client that `Init` has deleted is used.
      | none => (.lost, caches)
  | (_, .sendTo ipport _ _), caches => (if throws ipport then .threw else .sent, caches)

end Machine

def happening (throws : Bytes → Bool) : Chance → Machine Effect Answer Servers
  | chance, .redis service command, servers =>
      let left := befall chance (.data command) (servers service)
      (heardAs left.1, Function.update servers service left.2)
  | _, .sendTo ipport _ _, servers => (if throws ipport then .threw else .sent, servers)

theorem happening_served (throws : Bytes → Bool) :
    happening throws .served = serve throws := by
  funext effect servers
  cases effect with
  | sendTo ipport uri body => rfl
  | redis service command =>
      simp only [happening, befall, act, heardAs, seen_raw, serve]

/-- Every process has its clients, as many for a service as the others have, and
the servers of a service hold its records. -/
structure Carries (size : Bytes → Nat) (home : Bytes → Nat → Nat) (caches : Caches Worker)
    (servers : Servers) : Prop where
  some : ∀ service, 0 < size service
  length : ∀ worker service, (caches.pools worker service).length = size service
  whole : ∀ worker service, none ∉ caches.pools worker service
  view : ∀ service, View (size service) (home service) (caches.dbs service) (servers service)

section Runs
variable [DecidableEq Worker] (throws : Bytes → Bool) (home : Bytes → Nat → Nat)
variable (size : Bytes → Nat)

theorem Carries.step {caches : Caches Worker} {servers : Servers}
    (carries : Carries size home caches servers) (worker : Worker) (service : Bytes)
    (pool : Pool) (dbs : Nat → Db) (db : Db) (chances : Chances)
    (same : present pool = present (caches.pools worker service))
    (view : View (size service) (home service) dbs db) :
    Carries size home
      { pools := Function.update caches.pools worker
          (Function.update (caches.pools worker) service pool)
        dbs := Function.update caches.dbs service dbs
        chances := chances }
      (Function.update servers service db) := by
  refine ⟨carries.some, ?_, ?_, fun place => ?_⟩
  · refine (Function.forall_update_iff caches.pools fun _ pools =>
      ∀ place, (pools place).length = size place).mpr ⟨?_, fun other _ => carries.length other⟩
    exact (Function.forall_update_iff _ fun place (pool : Pool) => pool.length = size place).mpr
      ⟨(present_length same).trans (carries.length worker service),
        fun place _ => carries.length worker place⟩
  · refine (Function.forall_update_iff caches.pools fun _ pools =>
      ∀ place, none ∉ pools place).mpr ⟨?_, fun other _ => carries.whole other⟩
    exact (Function.forall_update_iff _ fun _ (pool : Pool) => none ∉ pool).mpr
      ⟨mt (none_mem_iff same).mp (carries.whole worker service),
        fun place _ => carries.whole worker place⟩
  · dsimp only
    by_cases here : place = service
    · subst here
      rwa [Function.update_self, Function.update_self]
    · rw [Function.update_of_ne here, Function.update_of_ne here]
      exact carries.view place

theorem sharded_foretells :
    Foretells Prod.mk (happening throws)
      (sharded throws home : Machine (Worker × Effect) Answer (Caches Worker))
      (Carries size home) (fun caches => Served caches.chances) (· = .served) := by
  intro worker effect caches servers carries
  cases effect with
  | sendTo ipport uri body => exact ⟨.served, rfl, carries, fun calm => ⟨rfl, calm⟩⟩
  | redis service command =>
      have does := keyed_does (home service) (caches.chances, caches.dbs service)
        (caches.pools worker service) (keyOf command) .lost .lost
        (Program.perform (.redis service command)) id
        ⟨service, command, .lost, rfl, rfl, rfl, rfl⟩ fun answer => ⟨answer, rfl⟩
      have served := run_served (home service) (caches.chances, caches.dbs service)
        (dispatched service (caches.pools worker service) command)
      simp only [sharded, dispatched] at served ⊢
      generalize run (ShardedCache.servers (home service)) _ _ = left at does served ⊢
      obtain ⟨left, after⟩ := left
      rcases left with _ | ⟨answer, pool⟩
      · have some : caches.pools worker service ≠ [] := by
          rw [← List.length_pos_iff, carries.length]
          exact carries.some service
        exact absurd (held_of_whole _ _ some (carries.whole worker service)) (does.deleted rfl).1
      · obtain ⟨-, same, matched⟩ := does.done answer pool rfl
        rw [carries.length] at matched
        obtain ⟨db, view, plays⟩ := matched.outcome (servers service) (carries.view service)
        obtain ⟨fates, runs, all⟩ := plays fun _ => .served
        simp only [onOneServer, Program.perform, run_issue, run_finish, asCache, oneServer, id_eq,
          Prod.mk.injEq] at runs
        obtain ⟨heard, -, left⟩ := runs
        refine ⟨fates 0, heard.symm, ?_, fun calm => ⟨all calm (fun _ => rfl) 0, served calm⟩⟩
        simp only [happening, left]
        exact carries.step home size worker service pool after.2 db after.1 same view

theorem sharded_simulates :
    Simulates Prod.mk (sharded throws home : Machine (Worker × Effect) Answer (Caches Worker))
      (serve throws) fun caches servers => Carries size home caches servers ∧ Served caches.chances
      := by
  intro worker effect caches servers ⟨carries, calm⟩
  obtain ⟨fate, answer, next, mild⟩ :=
    sharded_foretells throws home size worker effect caches servers carries
  obtain ⟨served, still⟩ := mild calm
  rw [served, happening_served] at answer next
  exact ⟨answer, next, still⟩

/-- Whatever processes run interleaved, and whatever happens to their
connections: what they execute and return over services of several servers, they
execute and return over services of one server with the same records, some of
whose commands are lost or refused. When nothing happens to the connections, no
command is, and it is a run over plain services. -/
theorem nodes_run_over_shards (program : Worker → Job → Calls Result)
    (caches : Caches Worker) (services : Servers) (carries : Carries size home caches services)
    (schedule : List (Choice Worker Job)) :
    let left := runPool (sharded throws home)
      (fun worker job => lowerProgram Prod.mk worker (program worker job)) (idle caches) schedule
    (∃ fates,
      let plain := runPool (foretold (happening throws)) program (idle (fates, services)) schedule
      left.history = plain.history.map (lowerEvent Prod.mk) ∧
        Carries size home left.shared plain.shared.2 ∧
        (Served caches.chances → Served fates)) ∧
    (Served caches.chances →
      let plain := runPool (serve throws) program (idle services) schedule
      left.history = plain.history.map (lowerEvent Prod.mk) ∧
        Carries size home left.shared plain.shared) := by
  refine ⟨?_, fun calm => ?_⟩
  · obtain ⟨fates, after, runs, ends, mild⟩ := runPool_foretold Prod.mk (happening throws) program
      (sharded throws home) (Carries size home) (fun caches => Served caches.chances) (· = .served)
      (sharded_foretells throws home size) .served rfl (idle services) caches schedule carries
    rw [lowerPool_idle] at runs
    refine ⟨fates, ?_, ?_, fun calm => (mild calm).1⟩
    · exact congrArg WorkerPool.Pool.history runs
    · rw [runs]
      exact ends
  · obtain ⟨after, runs, ends, -⟩ := runPool_lowered Prod.mk (sharded throws home) (serve throws)
      program _ (sharded_simulates throws home size) (idle services) caches schedule ⟨carries, calm⟩
    rw [lowerPool_idle] at runs
    rw [runs]
    exact ⟨rfl, ends⟩

end Runs

/-- Two processes with two clients each, of which one is not connected yet. The
reply to the first push is lost, and then a whole push. -/
def twoProcesses : Caches Bool where
  pools := fun _ _ => [some ⟨secretConf, true⟩, some ⟨secretConf, false⟩]
  dbs := fun _ _ => ∅
  chances
    | 2 => .unheard
    | 5 => .lost
    | _ => .served

def push (_ : Bool) (text : Bytes) : Calls Bool :=
  RedisCache.enQueue (ascii "cache") (ascii "pool....3") text

def returned : Event Bool Bytes (Bool × Effect) Answer Bool → Option (Bool × Bool)
  | .returned worker _ result => some (worker, result)
  | _ => none

def twoPushesEach : List (Choice Bool Bytes) :=
  [.start true (ascii "x"), .start false (ascii "y"), .advance false, .advance true,
    .start true (ascii "x"), .advance true, .start false (ascii "z"), .advance false]

theorem nodes_run_over_shards_twoProcesses :
    let left := runPool (sharded (fun _ => false) fun _ => id)
      (fun worker job => lowerProgram Prod.mk worker (push worker job)) (idle twoProcesses)
      twoPushesEach
    left.history.filterMap returned =
        [(false, false), (true, false), (true, true), (false, true)] ∧
      ∃ fates,
        let plain := runPool (foretold (happening fun _ => false)) push (idle (fates, fun _ => ∅))
          twoPushesEach
        left.history = plain.history.map (lowerEvent Prod.mk) ∧
          Carries (fun _ => 2) (fun _ => id) left.shared plain.shared.2 := by
  obtain ⟨⟨fates, history, carries, -⟩, -⟩ := nodes_run_over_shards (fun _ => false) (fun _ => id)
    (fun _ => 2) push twoProcesses (fun _ => ∅)
    ⟨fun _ => by decide, fun _ _ => rfl, fun _ _ => by simp [twoProcesses], fun _ _ => rfl⟩
    twoPushesEach
  exact ⟨by decide +kernel, fates, history, carries⟩

end FPayNode.ShardedNodes
