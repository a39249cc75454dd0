import FPayNode.RedisConnections

/-!
A `RedisCache` over several servers, with connections that break. A key is
always dispatched to the same place of the pool, so the servers together are one
key space, and what the operations return and leave is what they do on one
server some of whose commands are lost.
-/

namespace FPayNode.ShardedCache

open CommandProgram DecimalText RedisServer RedisConnections
open RedisCache (Effect Answer Calls)

/-! A command acts on the record of its key. -/

def keyOf : Command → Bytes
  | .get key => key
  | .set key _ _ _ => key
  | .del key => key
  | .incrBy key _ => key
  | .rpush key _ => key
  | .lrange key _ _ => key
  | .sadd key _ => key
  | .smembers key => key

theorem exec_elsewhere (command : Command) (db : Db) (key : Bytes) (apart : key ≠ keyOf command) :
    (exec command db).2.lookup key = db.lookup key := by
  cases command with
  | get place => rw [exec_get_db]
  | set place value duration condition =>
      exact exec_set_other db place value key duration condition apart
  | del place => exact exec_del_other db place key apart
  | incrBy place increment => exact afterIncr_lookup_other db place key increment apart
  | rpush place values => exact exec_rpush_other db place key values apart
  | lrange place start stop => rw [exec_lrange_db]
  | sadd place member => exact exec_sadd_other db place key member apart
  | smembers place => rw [exec_smembers_db]

/-- Two databases that agree on a key agree on it after a change of it. -/
theorem insert_alike (db other : Db) (key : Bytes) (value : Value) :
    (db.insert key value).lookup key = (other.insert key value).lookup key := by
  rw [Finmap.lookup_insert, Finmap.lookup_insert]

theorem exec_alike (command : Command) (db other : Db)
    (same : db.lookup (keyOf command) = other.lookup (keyOf command)) :
    (exec command db).1 = (exec command other).1 ∧
      (exec command db).2.lookup (keyOf command) = (exec command other).2.lookup (keyOf command) := by
  cases command with
  | get key =>
      simp only [keyOf, exec] at same ⊢
      rw [← same]
      split <;> exact ⟨rfl, same⟩
  | set key value duration condition =>
      simp only [keyOf, exec] at same ⊢
      rw [← same]
      split
      · exact ⟨rfl, same⟩
      · exact ⟨rfl, same⟩
      · exact ⟨rfl, insert_alike db other key _⟩
  | del key =>
      simp only [keyOf, exec] at same ⊢
      rw [← same, Finmap.lookup_erase, Finmap.lookup_erase]
      exact ⟨rfl, rfl⟩
  | incrBy key increment =>
      simp only [keyOf, exec, incremented] at same ⊢
      rw [← same]
      split
      · exact ⟨rfl, same⟩
      · exact ⟨rfl, insert_alike db other key _⟩
  | rpush key values =>
      simp only [keyOf, exec] at same ⊢
      rw [← same]
      split
      · exact ⟨rfl, insert_alike db other key _⟩
      · exact ⟨rfl, insert_alike db other key _⟩
      · exact ⟨rfl, same⟩
  | lrange key start stop =>
      simp only [keyOf, exec] at same ⊢
      rw [← same]
      split <;> exact ⟨rfl, same⟩
  | sadd key member =>
      simp only [keyOf, exec] at same ⊢
      rw [← same]
      split
      · exact ⟨rfl, insert_alike db other key _⟩
      · split
        · exact ⟨rfl, same⟩
        · exact ⟨rfl, insert_alike db other key _⟩
      · exact ⟨rfl, same⟩
  | smembers key =>
      simp only [keyOf, exec] at same ⊢
      rw [← same]
      split <;> exact ⟨rfl, same⟩

/-! Servers that answer requests. -/

/-- A reply as it comes from a server. -/
def raw : Reply → RedisReply
  | .status => .status (ascii "OK")
  | .nil => .nil
  | .string text => .string text
  | .integer n => .integer n
  | .array items => .array (items.map some)
  | .error => .error (ascii "ERR")

theorem seen_raw (reply : Reply) : RedisClient.seen (raw reply) = reply := by
  cases reply with
  | array items => simp [raw, RedisClient.seen]
  | status => decide
  | _ => rfl

/-- `LPOP`. A list without items is no record. -/
def popped (key : Bytes) (db : Db) : RedisReply × Db :=
  match db.lookup key with
  | some (.list [item]) => (.string item, db.erase key)
  | some (.list (item :: items)) => (.string item, db.insert key (.list items))
  | none | some (.list []) => (.nil, db)
  | _ => (.error (ascii "WRONGTYPE"), db)

def act : Request → Db → RedisReply × Db
  | .data command, db => (raw (exec command db).1, (exec command db).2)
  | .lpop key, db => popped key db
  | .ping, db => (.status (ascii "PONG"), db)
  | .connect _, db | .auth _, db => (.status (ascii "OK"), db)

/-- What happens to a request. An `unheard` one is carried out, and its reply
is lost. -/
inductive Chance where
  | served | unheard | lost | refused
  deriving DecidableEq

def befall : Chance → Request → Db → Outcome × Db
  | .served, .connect _, db => (.connected, db)
  | _, .connect _, db => (.failed, db)
  | .served, request, db => (.reply (act request db).1, (act request db).2)
  | .unheard, request, db => (.failed, (act request db).2)
  | .lost, _, db => (.failed, db)
  | .refused, _, db => (.reply (.error (ascii "ERR")), db)

abbrev Chances := Nat → Chance

def Chances.later (chances : Chances) : Chances := fun n => chances (n + 1)

def Chances.after (chance : Chance) (later : Chances) : Chances
  | 0 => chance
  | n + 1 => later n

def Served (chances : Chances) : Prop := ∀ n, chances n = .served

theorem Served.later {chances : Chances} (served : Served chances) : Served chances.later :=
  fun n => served (n + 1)

theorem served_after {later : Chances} (served : Served later) :
    Served (Chances.after .served later)
  | 0 => rfl
  | n + 1 => served n

/-- The servers of a pool: the client of a place is connected to the server
`home place`, for two configurations can name one server. -/
def servers (home : Nat → Nat) : Machine (Nat × Request) Outcome (Chances × (Nat → Db))
  | (place, request), (chances, dbs) =>
      let left := befall (chances 0) request (dbs (home place))
      (left.1, (chances.later, Function.update dbs (home place) left.2))

/-- One server behind one connection that is always there. -/
def oneServer : Machine Request Outcome (Chances × Db)
  | request, (chances, db) =>
      let left := befall (chances 0) request db
      (left.1, (chances.later, left.2))

/-! The servers of a pool as one key space. -/

def slot (size : Nat) (key : Bytes) : Nat := (hashOf key &&& 0x7FFFFFFF).toNat % size

theorem slotOf_slot (pool : Pool) (key : Bytes) : slotOf pool key = slot pool.length key := rfl

section Space
variable (size : Nat) (home : Nat → Nat)

/-- Every record is at the server of its key's slot. Records that a server has
of keys of other slots are not seen. -/
def View (dbs : Nat → Db) (db : Db) : Prop :=
  ∀ key, db.lookup key = (dbs (home (slot size key))).lookup key

/-- What was done to the servers is what `whole` does on one server: after it
the key space is the same, and it returns the same. -/
structure Matched {Result : Type} (before after : Chances × (Nat → Db)) (result : Result)
    (whole : Chances × Db → Result × (Chances × Db)) : Prop where
  served : Served before.1 → Served after.1
  outcome : ∀ db, View size home before.2 db → ∃ left, View size home after.2 left ∧
    ∀ later, ∃ fates, whole (fates, db) = (result, (later, left)) ∧
      (Served before.1 → Served later → Served fates)

variable {size home} {Result Final : Type} {before middle after : Chances × (Nat → Db)}

theorem Matched.trans {first : Result} {final : Final}
    {whole : Chances × Db → Result × (Chances × Db)}
    {rest : Result → Chances × Db → Final × (Chances × Db)}
    (one : Matched size home before middle first whole)
    (two : Matched size home middle after final (rest first)) :
    Matched size home before after final fun state =>
      rest (whole state).1 (whole state).2 := by
  refine ⟨fun served => two.served (one.served served), fun db view => ?_⟩
  obtain ⟨between, meets, plays⟩ := one.outcome db view
  obtain ⟨left, ends, continues⟩ := two.outcome between meets
  refine ⟨left, ends, fun later => ?_⟩
  obtain ⟨second, runs, allSecond⟩ := continues later
  obtain ⟨fates, starts, allFates⟩ := plays second
  refine ⟨fates, ?_, fun served all => allFates served (allSecond (one.served served) all)⟩
  simp only [starts, runs]

/-- Nothing was done to the records, and nothing is done on one server. -/
theorem Matched.idle (result : Result) (records : after.2 = before.2)
    (served : Served before.1 → Served after.1) :
    Matched size home before after result fun state => (result, state) := by
  refine ⟨served, fun db view => ⟨db, ?_, fun later => ⟨later, rfl, fun _ all => all⟩⟩⟩
  rwa [records]

theorem Matched.map {result : Result} {whole : Chances × Db → Result × (Chances × Db)}
    (one : Matched size home before after result whole) (change : Result → Final) :
    Matched size home before after (change result) fun state =>
      (change (whole state).1, (whole state).2) := by
  refine ⟨one.served, fun db view => ?_⟩
  obtain ⟨left, ends, plays⟩ := one.outcome db view
  refine ⟨left, ends, fun later => ?_⟩
  obtain ⟨fates, runs, all⟩ := plays later
  exact ⟨fates, by simp only [runs], all⟩

/-- One after the other, with the results of both. -/
theorem Matched.both {Other : Type} {first : Result} {second : Other}
    {whole : Chances × Db → Result × (Chances × Db)} {later : Chances × Db → Other × (Chances × Db)}
    (one : Matched size home before middle first whole)
    (two : Matched size home middle after second later) (combine : Result → Other → Final) :
    Matched size home before after (combine first second) fun state =>
      (combine (whole state).1 (later (whole state).2).1, (later (whole state).2).2) :=
  @Matched.trans size home Result Final before middle after first _ whole
    (fun result state => (combine result (later state).1, (later state).2)) one
    (two.map (combine first))

/-- A program of another text that does the same. -/
theorem Matched.congr {result : Result} {whole other : Chances × Db → Result × (Chances × Db)}
    (one : Matched size home before after result whole) (same : ∀ state, other state = whole state) :
    Matched size home before after result other := by
  rwa [funext same]

/-- Something was done before that left the records. -/
theorem Matched.preceded {result : Result} {whole : Chances × Db → Result × (Chances × Db)}
    (records : middle.2 = before.2) (served : Served before.1 → Served middle.1)
    (one : Matched size home middle after result whole) :
    Matched size home before after result whole := by
  refine ⟨fun all => one.served (served all), fun db view => ?_⟩
  obtain ⟨left, ends, plays⟩ := one.outcome db (by rwa [records])
  refine ⟨left, ends, fun later => ?_⟩
  obtain ⟨fates, runs, all⟩ := plays later
  exact ⟨fates, runs, fun before => all (served before)⟩

end Space

/-! One request about a key, at the place of its slot. -/

/-- The key whose record a request reads or writes. -/
def recordOf : Request → Option Bytes
  | .data command => some (keyOf command)
  | .lpop key => some key
  | _ => none

theorem popped_alike (key : Bytes) (db other : Db) (same : db.lookup key = other.lookup key) :
    (popped key db).1 = (popped key other).1 ∧
      (popped key db).2.lookup key = (popped key other).2.lookup key := by
  simp only [popped]
  rw [← same]
  split
  · rw [Finmap.lookup_erase, Finmap.lookup_erase]
    exact ⟨rfl, rfl⟩
  · exact ⟨rfl, insert_alike db other key _⟩
  · exact ⟨rfl, same⟩
  · exact ⟨rfl, same⟩
  · exact ⟨rfl, same⟩

theorem popped_elsewhere (place key : Bytes) (db : Db) (apart : key ≠ place) :
    (popped place db).2.lookup key = db.lookup key := by
  simp only [popped]
  split
  · exact Finmap.lookup_erase_ne apart
  · exact Finmap.lookup_insert_of_ne _ apart
  · rfl
  · rfl
  · rfl

theorem act_alike (request : Request) (key : Bytes) (about : recordOf request = some key)
    (db other : Db) (same : db.lookup key = other.lookup key) :
    (act request db).1 = (act request other).1 ∧
      (act request db).2.lookup key = (act request other).2.lookup key := by
  cases request with
  | data command =>
      cases about
      obtain ⟨reply, record⟩ := exec_alike command db other same
      exact ⟨congrArg raw reply, record⟩
  | lpop place =>
      cases about
      exact popped_alike key db other same
  | connect conf => cases about
  | auth passwd => cases about
  | ping => cases about

theorem act_elsewhere (request : Request) (place : Bytes) (about : recordOf request = some place)
    (db : Db) (key : Bytes) (apart : key ≠ place) :
    (act request db).2.lookup key = db.lookup key := by
  cases request with
  | data command =>
      cases about
      exact exec_elsewhere command db key apart
  | lpop other =>
      cases about
      exact popped_elsewhere place key db apart
  | connect conf => cases about
  | auth passwd => cases about
  | ping => cases about

section Befall
variable (chance : Chance) (request : Request) (key : Bytes) (about : recordOf request = some key)
include about

theorem befall_record (db : Db) :
    befall chance request db =
      match chance with
      | .served => (.reply (act request db).1, (act request db).2)
      | .unheard => (.failed, (act request db).2)
      | .lost => (.failed, db)
      | .refused => (.reply (.error (ascii "ERR")), db) := by
  cases request with
  | connect conf => cases about
  | _ => cases chance <;> rfl

theorem befall_alike (db other : Db) (same : db.lookup key = other.lookup key) :
    (befall chance request db).1 = (befall chance request other).1 ∧
      (befall chance request db).2.lookup key = (befall chance request other).2.lookup key := by
  obtain ⟨reply, record⟩ := act_alike request key about db other same
  rw [befall_record chance request key about, befall_record chance request key about]
  cases chance with
  | served => exact ⟨congrArg Outcome.reply reply, record⟩
  | unheard => exact ⟨rfl, record⟩
  | lost => exact ⟨rfl, same⟩
  | refused => exact ⟨rfl, same⟩

theorem befall_elsewhere (db : Db) (other : Bytes) (apart : other ≠ key) :
    (befall chance request db).2.lookup other = db.lookup other := by
  have acted := act_elsewhere request key about db other apart
  rw [befall_record chance request key about]
  cases chance with
  | served => exact acted
  | unheard => exact acted
  | lost => rfl
  | refused => rfl

/-- At the place of its key a request does what it does on one server. -/
theorem request_matched (size : Nat) (home : Nat → Nat) (state : Chances × (Nat → Db)) :
    Matched size home state (servers home (slot size key, request) state).2
      (servers home (slot size key, request) state).1 (oneServer request) := by
  obtain ⟨chances, dbs⟩ := state
  refine ⟨Served.later, fun db view => ?_⟩
  obtain ⟨answer, record⟩ := befall_alike (chances 0) request key about db _ (view key)
  refine ⟨(befall (chances 0) request db).2, fun other => ?_, fun later => ?_⟩
  · simp only [servers]
    by_cases same : other = key
    · subst same
      rw [Function.update_self, record]
    · rw [befall_elsewhere _ request key about db other same, view other]
      by_cases shared : home (slot size other) = home (slot size key)
      · rw [shared, Function.update_self, befall_elsewhere _ request key about _ other same]
      · rw [Function.update_of_ne shared]
  · refine ⟨Chances.after (chances 0) later, ?_, fun served all => ?_⟩
    · exact Prod.ext answer rfl
    · rw [show chances 0 = .served from served 0]
      exact served_after all

end Befall

/-! Clients that connect. -/

section Connections
variable (home : Nat → Nat) (place : Nat) (client : RedisClient) (state : Chances × (Nat → Db))

/-- Connecting leaves the records, and succeeds where it is served. -/
structure Connects (after : Chances × (Nat → Db)) (reached : Bool) (client : RedisClient) :
    Prop where
  records : after.2 = state.2
  served : Served state.1 → Served after.1
  reaches : Served state.1 → reached = true
  context : reached = true → client._context = true

theorem servers_records (request : Request) (bare : recordOf request = none) :
    (servers home (place, request) state).2.2 = state.2 := by
  obtain ⟨chances, dbs⟩ := state
  have unchanged : (befall (chances 0) request (dbs (home place))).2 = dbs (home place) := by
    cases request with
    | data command => cases bare
    | lpop key => cases bare
    | _ => cases chances 0 <;> rfl
  simp only [servers, unchanged, Function.update_eq_self]

theorem authenticate_connects (context : client._context = true) :
    let left := run (servers home) (RedisClient.authenticate place client) state
    Connects state left.2 (left.1.1 = .ok) left.1.2 := by
  rw [RedisClient.authenticate]
  split
  next secret =>
    rw [run_issue]
    have records := servers_records home place state (.auth client._conf._passwd) rfl
    have served : Served state.1 →
        (servers home (place, .auth client._conf._passwd) state).1 =
          .reply (.status (ascii "OK")) := by
      intro all
      simp only [servers, all 0]
      rfl
    split
    next reply answered =>
      split
      · next good =>
          exact ⟨records, Served.later, fun _ => rfl, fun _ => context⟩
      · next bad =>
          refine ⟨records, Served.later, fun all => ?_, fun is => by cases is⟩
          have same := answered.symm.trans (served all)
          cases same
          exact absurd (by decide) bad
    next other =>
      refine ⟨records, Served.later, fun all => absurd (served all) (other _), fun is => by cases is⟩
  · exact ⟨rfl, id, fun _ => rfl, fun _ => context⟩

theorem Connect_connects :
    let left := run (servers home) (RedisClient.Connect place client) state
    Connects state left.2 (left.1.1 = .ok) left.1.2 := by
  rw [RedisClient.Connect, run_issue]
  have records := servers_records home place state (.connect client._conf) rfl
  have served : Served state.1 →
      (servers home (place, .connect client._conf) state).1 = .connected := by
    intro all
    simp only [servers, all 0]
    rfl
  split
  next failed =>
    refine ⟨records, Served.later, fun all => ?_, fun is => by cases is⟩
    rw [served all] at failed
    cases failed
  · have rest := authenticate_connects home place { client with _context := true }
      (servers home (place, .connect client._conf) state).2 rfl
    exact ⟨rest.records.trans records, fun all => rest.served (Served.later all),
      fun all => rest.reaches (Served.later all), rest.context⟩

theorem ready_connects :
    let left := run (servers home) (ready place client) state
    Connects state left.2 left.1.1 left.1.2 := by
  rw [ready]
  split
  next context => exact ⟨rfl, id, fun _ => rfl, fun _ => context⟩
  · have connects := Connect_connects home place client state
    exact (run_bind (servers home) (RedisClient.Connect place client) _ state).symm ▸ connects

end Connections

/-! A client function on one server, and on the client of its key. -/

/-- An outcome as the client functions see it. -/
def heardAs : Outcome → Answer
  | .reply reply => .reply (RedisClient.seen reply)
  | _ => .lost

def asCache : Machine Effect Answer (Chances × Db)
  | .redis _ command, state =>
      (heardAs (oneServer (.data command) state).1, (oneServer (.data command) state).2)
  | .sendTo _ _ _, state => (.threw, state)

theorem through_redis {State : Type} (machine : Machine (Nat × Request) Outcome State) (place : Nat)
    (service : Bytes) (command : Command) (state : State) :
    through machine place (.redis service command) state =
      (heardAs (machine (place, .data command) state).1,
        (machine (place, .data command) state).2) := by
  rw [through]
  cases (machine (place, .data command) state).1 <;> rfl

/-- What an operation with this function returns on one server. -/
def onOneServer {Result Final : Type} (function : Calls Result) (final : Result → Final)
    (state : Chances × Db) : Final × (Chances × Db) :=
  (final (run asCache function state).1, (run asCache function state).2)

/-- A command that the function sends is about the key. Without a command, and
when it is lost, the operation returns what it returns without a client. -/
def About {Result Final : Type} (key : Bytes) (unreached : Final) (final : Result → Final) :
    Calls Result → Prop
  | .finish result => final result = unreached
  | .issue effect next => ∃ service command result, effect = .redis service command ∧
      keyOf command = key ∧ next .lost = .finish result ∧ final result = unreached

section Functions
variable {Result Final : Type} {key : Bytes} {unreached : Final} {final : Result → Final}
variable {function : Calls Result} (about : About key unreached final function)
include about

theorem About.missed (later : Chances) (db : Db) :
    ∃ fates, onOneServer function final (fates, db) = (unreached, (later, db)) := by
  cases function with
  | finish result =>
      have ends : final result = unreached := about
      exact ⟨later, by simp [onOneServer, ends]⟩
  | issue effect next =>
      obtain ⟨service, command, result, rfl, -, stops, misses⟩ := about
      refine ⟨Chances.after .lost later, ?_⟩
      have lost : asCache (.redis service command) (Chances.after .lost later, db) =
          (.lost, (later, db)) := rfl
      simp only [onOneServer, run_issue, lost, stops, run_finish, misses]

theorem About.matched (once : AsksOnce function) (size : Nat) (home : Nat → Nat)
    (client : RedisClient) (state : Chances × (Nat → Db)) :
    let left := run (servers home) (client.onConnection (slot size key) function) state
    Matched size home state left.2 (final left.1.1) (onOneServer function final) := by
  have same := onConnection_run (servers home) (slot size key) function client state
  have answered := congrArg Prod.fst same
  have ended := congrArg Prod.snd same
  simp only at answered ended
  simp only [answered, ended]
  cases function with
  | finish result => exact Matched.idle (final result) rfl id
  | issue effect next =>
      obtain ⟨service, command, _, rfl, rfl, -, -⟩ := about
      choose ends stops using once
      simp only [run_issue, stops, run_finish, through_redis]
      have request := request_matched (.data command) (keyOf command) rfl size home state
      refine (request.map fun outcome => final (ends (heardAs outcome))).congr fun server => ?_
      simp only [onOneServer, run_issue, stops, run_finish, asCache]

end Functions

/-! Operations on a pool. -/

/-- Which places have a client. -/
def present (pool : Pool) : List Bool := pool.map Option.isSome

/-- The key is dispatched to a client that `Init` has not deleted. -/
def held (pool : Pool) (key : Bytes) : Prop := ∃ client, pool[slotOf pool key]? = some (some client)

theorem present_length {pool kept : Pool} (same : present kept = present pool) :
    kept.length = pool.length := by
  simpa [present] using congrArg List.length same

theorem held_of_present {pool kept : Pool} (same : present kept = present pool) (key : Bytes)
    (holds : held pool key) : held kept key := by
  obtain ⟨client, found⟩ := holds
  have there : (present kept)[slotOf kept key]? = some true := by
    rw [same, slotOf_slot, present_length same, ← slotOf_slot]
    simp [present, found]
  rw [present, List.getElem?_map, Option.map_eq_some_iff] at there
  obtain ⟨entry, is, some⟩ := there
  obtain ⟨other, rfl⟩ := Option.isSome_iff_exists.mp some
  exact ⟨other, is⟩

theorem present_set (pool : Pool) (place : Nat) (client other : RedisClient)
    (found : pool[place]? = some (some client)) :
    present (pool.set place (some other)) = present pool := by
  apply List.ext_getElem?
  intro index
  simp only [present, List.getElem?_map, List.getElem?_set]
  split
  · next same =>
      subst same
      obtain ⟨inside, is⟩ := List.getElem?_eq_some_iff.mp found
      simp [inside, is]
  · rfl

section Pools
variable (home : Nat → Nat) (state : Chances × (Nat → Db))

/-- An operation on the key: without its client nothing happens, and with it
what happens on one server. -/
structure Does {Result : Type} (pool : Pool) (key : Bytes)
    (whole : Chances × Db → Result × (Chances × Db))
    (left : Option (Result × Pool) × (Chances × (Nat → Db))) : Prop where
  deleted : left.1 = none → ¬ held pool key ∧ left.2.2 = state.2
  done : ∀ result kept, left.1 = some (result, kept) → held pool key ∧
    present kept = present pool ∧ Matched pool.length home state left.2 result whole

variable {Result Final : Type} (pool : Pool) (key : Bytes)

theorem run_then (program : Connecting Result) (rest : Result → Connecting Final) :
    run (servers home) (program.bind rest) state =
      run (servers home) (rest (run (servers home) program state).1)
        (run (servers home) program state).2 :=
  run_bind (servers home) program rest state

theorem onClient_does (unreached : Result)
    (function : Nat → RedisClient → Connecting (Result × RedisClient))
    (whole : Chances × Db → Result × (Chances × Db))
    (missed : ∀ later db, ∃ fates, whole (fates, db) = (unreached, (later, db)))
    (reaches : ∀ client state, client._context = true →
      let left := run (servers home) (function (slotOf pool key) client) state
      Matched pool.length home state left.2 left.1.1 whole) :
    Does home state pool key whole
      (run (servers home) (onClient pool key unreached function) state) := by
  rw [onClient]
  split
  next client found =>
    have connects := ready_connects home (slotOf pool key) client state
    rw [run_then]
    generalize run (servers home) (ready (slotOf pool key) client) state = left at connects
    obtain ⟨⟨reached, client⟩, middle⟩ := left
    have holds : held pool key := ⟨_, found⟩
    cases reached with
    | false =>
        simp only [Bool.false_eq_true, ↓reduceIte, run_finish]
        refine ⟨fun is => (by cases is), fun result kept is => ?_⟩
        cases is
        refine ⟨holds, present_set pool _ _ _ found, connects.served, fun db view => ?_⟩
        refine ⟨db, fun other => ?_, fun later => ?_⟩
        · rw [view other, connects.records]
        · obtain ⟨fates, misses⟩ := missed later db
          exact ⟨fates, misses, fun served => absurd (connects.reaches served) Bool.false_ne_true⟩
    | true =>
        simp only [↓reduceIte, run_then]
        refine ⟨fun is => (by cases is), fun result kept is => ?_⟩
        cases is
        exact ⟨holds, present_set pool _ _ _ found,
          (reaches client middle (connects.context rfl)).preceded connects.records connects.served⟩
  next absent =>
    refine ⟨fun _ => ⟨?_, rfl⟩, fun _ _ is => by cases is⟩
    rintro ⟨client, found⟩
    exact absent client found

theorem keyed_does (unreached : Final) (unconnected : Result) (function : Calls Result)
    (final : Result → Final) (about : About key unreached final function)
    (once : AsksOnce function) :
    Does home state pool key (onOneServer function final)
      (run (servers home) (keyed pool key unreached unconnected function final) state) := by
  apply onClient_does home state pool key unreached
  · exact about.missed
  · intro client middle context
    rw [run_then, RedisClient.call, if_pos context]
    exact about.matched once pool.length home client middle

/-- What `deQueue` makes of the outcome of an `LPOP`. -/
def popHeard (value : Bytes) : Outcome → Bool × Bytes
  | .reply (.string str) => (true, str)
  | .reply _ => (true, value)
  | _ => (false, value)

def popOne (topic value : Bytes) (server : Chances × Db) : (Bool × Bytes) × (Chances × Db) :=
  (popHeard value (oneServer (.lpop topic) server).1, (oneServer (.lpop topic) server).2)

theorem deQueue_does (value : Bytes) :
    Does home state pool key (popOne key value)
      (run (servers home) (deQueue pool key value) state) := by
  apply onClient_does home state pool key (false, value)
  · exact fun later db => ⟨Chances.after .lost later, rfl⟩
  · intro client middle context
    have request := request_matched (.lpop key) key rfl pool.length home middle
    rw [run_then, RedisClient.LPop, if_pos context, run_issue]
    refine Eq.mp ?_ (request.map (popHeard value))
    rw [← slotOf_slot]
    generalize servers home (slotOf pool key, .lpop key) middle = left
    obtain ⟨outcome, after⟩ := left
    cases outcome with
    | connected => rfl
    | failed => rfl
    | reply reply => cases reply <;> rfl

end Pools

/-! The client functions are about their keys. -/

section Abouts
variable (key value : Bytes)

theorem get_about : About key (false, value) (fun (ret, value) => (decide (ret = .ok), value))
    (RedisCache.RedisClient.get [] key value) := by
  rw [RedisCache.RedisClient.get]
  split
  · rfl
  · exact ⟨[], .get key, (.connErr, value), rfl, rfl, rfl, rfl⟩

theorem set_about (duration x : UInt32) : About key false (fun ret => decide (ret = .ok))
    (RedisCache.RedisClient.set [] key value duration x) := by
  rw [RedisCache.RedisClient.set]
  split
  · rfl
  · exact ⟨[], .set key value duration _, .connErr, rfl, rfl, rfl, rfl⟩

theorem delete_about : About key false (fun ret => decide (ret = .ok))
    (RedisCache.RedisClient.delete [] key) := by
  rw [RedisCache.RedisClient.delete]
  split
  · rfl
  · exact ⟨[], .del key, .connErr, rfl, rfl, rfl, rfl⟩

theorem incrBy_about (increment rvalue : Int64) :
    About key (false, rvalue) (fun (ret, rvalue) => (decide (ret = .ok), rvalue))
      (RedisCache.RedisClient.incrBy [] key increment rvalue) := by
  rw [RedisCache.RedisClient.incrBy]
  split
  · rfl
  · exact ⟨[], .incrBy key increment, (.connErr, rvalue), rfl, rfl, rfl, rfl⟩

theorem rpush_about (vals : List Bytes) : About key false (fun ret => decide (ret = .ok))
    (RedisCache.RedisClient.rpush [] key vals) := by
  rw [RedisCache.RedisClient.rpush]
  split
  · rfl
  · exact ⟨[], .rpush key vals, .connErr, rfl, rfl, rfl, rfl⟩

theorem lrange_about (members : List Bytes) :
    About key (false, members) (fun (ret, members) => (decide (ret = .ok), members))
      (RedisCache.RedisClient.lrange [] key 0 (-1) members) :=
  ⟨[], .lrange key 0 (-1), (.connErr, members), rfl, rfl, rfl, rfl⟩

theorem sadd_about : About key false (fun ret => decide (ret = .ok))
    (RedisCache.RedisClient.sadd [] key value) :=
  ⟨[], .sadd key value, .connErr, rfl, rfl, rfl, rfl⟩

theorem smembers_about (members : List Bytes) :
    About key (false, members) (fun (ret, members) => (decide (ret = .ok), members))
      (RedisCache.RedisClient.smembers [] key members) :=
  ⟨[], .smembers key, (.connErr, members), rfl, rfl, rfl, rfl⟩

end Abouts

/-! What the operations return. -/

inductive Returned where
  | flag (done : Bool)
  | text (left : Bool × Bytes)
  | number (left : Bool × Int64)
  | members (left : Bool × List Bytes)
  | nothing
  deriving DecidableEq

/-- The pool operation, with what it returns. -/
def returning {Result : Type} (wrap : Result → Returned)
    (operation : Connecting (Option (Result × Pool))) : Connecting (Option (Returned × Pool)) :=
  operation.bind fun left => .finish (left.map fun (result, pool) => (wrap result, pool))

def respond (pool : Pool) : Operation → Connecting (Option (Returned × Pool))
  | .get key value => returning .text (get pool key value)
  | .set key value duration => returning .flag (set pool key value duration)
  | .setNX key value => returning .flag (setNX pool key value)
  | .delete key => returning .flag (delete pool key)
  | .incrBy key increment rvalue => returning .number (incrBy pool key increment rvalue)
  | .enQueue topic vals => returning .flag (enQueue pool topic vals)
  | .deQueue topic value => returning .text (deQueue pool topic value)
  | .deQueueAll key members => returning .members (deQueueAll pool key members)
  | .addToSet key value => returning .flag (addToSet pool key value)
  | .getMembers key members => returning .members (getMembers pool key members)
  | .checkRedis => (CheckRedis (List.range pool.length) pool).bind fun left =>
      .finish (left.map fun pool => (.nothing, pool))

/-- Operations one after another, until one of them uses a deleted client. -/
def respondAll : List Operation → Pool → Connecting (List Returned)
  | [], _ => .finish []
  | operation :: rest, pool => (respond pool operation).bind fun
      | some (returned, pool) => (respondAll rest pool).bind fun later =>
          .finish (returned :: later)
      | none => .finish []

/-- A cache from its beginning. -/
def conversation (confs : List RedisConf) (all : List Operation) : Connecting (List Returned) :=
  (Init confs []).bind (respondAll all)

/-- The operation on one server: there it is a client function, and the check of
the connections does nothing. -/
def plainly : Operation → Chances × Db → Returned × (Chances × Db)
  | .get key value => onOneServer (RedisCache.get [] key value) .text
  | .set key value duration => onOneServer (RedisCache.set [] key value duration) .flag
  | .setNX key value => onOneServer (RedisCache.setNX [] key value) .flag
  | .delete key => onOneServer (RedisCache.delete [] key) .flag
  | .incrBy key increment rvalue =>
      onOneServer (RedisCache.incrBy [] key increment rvalue) .number
  | .enQueue topic vals =>
      onOneServer (RedisCache.RedisClient.rpush [] topic vals) fun ret => .flag (ret = .ok)
  | .deQueue topic value => fun server =>
      (.text (popOne topic value server).1, (popOne topic value server).2)
  | .deQueueAll key members => onOneServer (RedisCache.deQueueAll [] key members) .members
  | .addToSet key value => onOneServer (RedisCache.addToSet [] key value) .flag
  | .getMembers key members => onOneServer (RedisCache.getMembers [] key members) .members
  | .checkRedis => fun server => (.nothing, server)

def plainAll : List Operation → Chances × Db → List Returned × (Chances × Db)
  | [], server => ([], server)
  | operation :: rest, server =>
      let one := plainly operation server
      let later := plainAll rest one.2
      (one.1 :: later.1, later.2)

section Operations
variable (home : Nat → Nat) (state : Chances × (Nat → Db)) (pool : Pool)

/-- Without a deleted client an operation returns. -/
structure Responds (operation : Operation)
    (left : Option (Returned × Pool) × (Chances × (Nat → Db))) : Prop where
  deleted : left.1 = none → (pool = [] ∨ none ∈ pool) ∧ left.2.2 = state.2
  done : ∀ returned kept, left.1 = some (returned, kept) → present kept = present pool ∧
    Matched pool.length home state left.2 returned (plainly operation)

theorem held_of_whole (key : Bytes) (some : pool ≠ []) (whole : none ∉ pool) :
    held pool key := by
  have inside : slotOf pool key < pool.length := Nat.mod_lt _ (List.length_pos_iff.mpr some)
  cases found : pool[slotOf pool key] with
  | none => exact absurd (found ▸ List.getElem_mem inside) whole
  | some client => exact ⟨client, by rw [List.getElem?_eq_getElem inside, found]⟩

theorem Does.responds {Result : Type} {key : Bytes} {whole : Chances × Db → Result × (Chances × Db)}
    {program : Connecting (Option (Result × Pool))} {wrap : Result → Returned}
    {operation : Operation}
    (does : Does home state pool key whole (run (servers home) program state))
    (same : ∀ server, plainly operation server = (wrap (whole server).1, (whole server).2)) :
    Responds home state pool operation (run (servers home) (returning wrap program) state) := by
  rw [returning, run_then, run_finish]
  refine ⟨fun is => ?_, fun returned kept is => ?_⟩
  · obtain ⟨lacks, records⟩ := does.deleted (Option.map_eq_none_iff.mp is)
    refine ⟨?_, records⟩
    by_contra whole
    rw [not_or] at whole
    exact lacks (held_of_whole pool key whole.1 whole.2)
  · obtain ⟨⟨result, left⟩, found, both⟩ := Option.map_eq_some_iff.mp is
    obtain ⟨-, kept, matched⟩ := does.done result left found
    cases both
    exact ⟨kept, (matched.map wrap).congr same⟩

/-- A client function and what the cache makes of it, on one server. -/
theorem onOneServer_bind {Result Middle Final : Type} (function : Calls Result)
    (change : Result → Middle) (final : Middle → Final) (server : Chances × Db) :
    onOneServer (function >>= fun result => pure (change result)) final server =
      (final (onOneServer function change server).1, (onOneServer function change server).2) := by
  simp only [onOneServer, run_bind]
  rfl

/-- The rest of `deQueueAll` after its read. -/
def thenDelete (key : Bytes) (read : Bool × List Bytes) (server : Chances × Db) :
    (Bool × List Bytes) × (Chances × Db) :=
  if read.1 then
    let deleted := onOneServer (RedisCache.RedisClient.delete [] key)
      (fun ret => decide (ret = .ok)) server
    ((deleted.1, read.2), deleted.2)
  else (read, server)

theorem deQueueAll_plain (key : Bytes) (members : List Bytes) (server : Chances × Db) :
    let read := onOneServer (RedisCache.RedisClient.lrange [] key 0 (-1) members)
      (fun (ret, members) => (decide (ret = .ok), members)) server
    onOneServer (RedisCache.deQueueAll [] key members) id server =
      thenDelete key read.1 read.2 := by
  simp only [onOneServer, RedisCache.deQueueAll, run_bind]
  generalize run asCache (RedisCache.RedisClient.lrange [] key 0 (-1) members) server = left
  obtain ⟨⟨ret, items⟩, after⟩ := left
  cases ret with
  | ok => simp only [thenDelete, decide_true, ↓reduceIte, RedisCache.delete, run_bind]; rfl
  | _ => rfl

/-- The read and the delete go to the same client. -/
theorem deQueueAll_does (key : Bytes) (members : List Bytes) :
    Does home state pool key (onOneServer (RedisCache.deQueueAll [] key members) id)
      (run (servers home) (deQueueAll pool key members) state) := by
  have read := keyed_does home state pool key (false, members) (.connErr, members) _ _
    (lrange_about key members) (lrange_once [] key 0 (-1) members)
  rw [deQueueAll, run_then]
  generalize run (servers home) (keyed pool key (false, members) (.connErr, members)
    (RedisCache.RedisClient.lrange [] key 0 (-1) members)
    fun (ret, members) => (decide (ret = .ok), members)) state = left at read ⊢
  obtain ⟨left, middle⟩ := left
  rcases left with _ | ⟨⟨done, items⟩, kept⟩
  · exact ⟨read.deleted, fun _ _ is => by cases is⟩
  · obtain ⟨holds, same, matched⟩ := read.done _ kept rfl
    cases done with
    | false =>
        refine ⟨fun is => (by cases is), fun result left is => ?_⟩
        cases is
        refine ⟨holds, same, Matched.congr ?_ (deQueueAll_plain key members)⟩
        exact matched.trans (Matched.idle _ rfl id)
    | true =>
        have deletes := keyed_does home middle kept key false .connErr _ _ (delete_about key)
          (delete_once [] key)
        simp only [run_then]
        change Does home state pool key _ (run (servers home) (.finish
          ((run (servers home) (RedisConnections.delete kept key) middle).1.map fun left =>
            ((left.1, items), left.2)))
          (run (servers home) (RedisConnections.delete kept key) middle).2)
        have there := held_of_present same key holds
        rw [run_finish]
        refine ⟨fun is => ?_, fun result left is => ?_⟩
        · exact absurd there (deletes.deleted (Option.map_eq_none_iff.mp is)).1
        · obtain ⟨⟨deleted, after⟩, found, both⟩ := Option.map_eq_some_iff.mp is
          obtain ⟨-, later, second⟩ := deletes.done deleted after found
          cases both
          refine ⟨holds, later.trans same, Matched.congr ?_ (deQueueAll_plain key members)⟩
          rw [present_length same] at second
          exact matched.trans (second.map fun deleted => (deleted, items))

theorem run_served {Result : Type} (program : Connecting Result) (served : Served state.1) :
    Served (run (servers home) program state).2.1 := by
  induction program generalizing state with
  | finish result => exact served
  | issue request next ih => exact ih _ _ served.later

theorem Ping_records (place : Nat) (client : RedisClient) :
    (run (servers home) (RedisClient.Ping place client) state).2.2 = state.2 := by
  rw [RedisClient.Ping]
  split
  · rw [run_issue]
    have records := servers_records home place state .ping rfl
    split <;> exact records
  · rfl

theorem CheckRedis_checks (places : List Nat) :
    let left := run (servers home) (CheckRedis places pool) state
    left.2.2 = state.2 ∧
      (left.1 = none → ∃ place ∈ places, ∀ client, pool[place]? ≠ some (some client)) ∧
      ∀ kept, left.1 = some kept → present kept = present pool := by
  induction places generalizing state pool with
  | nil =>
      refine ⟨rfl, fun is => (by cases is), fun kept is => ?_⟩
      cases is
      rfl
  | cons place places ih =>
      have next : ∀ (client other : RedisClient) (middle : Chances × (Nat → Db)),
          pool[place]? = some (some client) → middle.2 = state.2 →
          let left := run (servers home) (CheckRedis places (pool.set place (some other))) middle
          left.2.2 = state.2 ∧
            (left.1 = none → ∃ other ∈ place :: places, ∀ client, pool[other]? ≠ some (some client)) ∧
            ∀ kept, left.1 = some kept → present kept = present pool := by
        intro client other middle found records
        obtain ⟨same, stops, keeps⟩ := ih middle (pool.set place (some other))
        have kept := present_set pool place client other found
        refine ⟨same.trans records, fun is => ?_, fun left is => (keeps left is).trans kept⟩
        obtain ⟨deleted, member, lacks⟩ := stops is
        refine ⟨deleted, List.mem_cons_of_mem place member, fun held there => ?_⟩
        rw [List.getElem?_set] at lacks
        split at lacks
        · next here =>
            have inside := (List.getElem?_eq_some_iff.mp found).1
            exact lacks other (by simp [inside])
        · exact lacks held there
      rw [CheckRedis]
      split
      next client found =>
        have pinged := Ping_records home state place client
        rw [run_then]
        generalize run (servers home) (RedisClient.Ping place client) state = left at pinged
        obtain ⟨⟨answers, client⟩, middle⟩ := left
        dsimp only
        split
        · exact next _ client middle found pinged
        · have connects := Connect_connects home place client middle
          rw [run_then]
          exact next _ _ _ found (connects.records.trans pinged)
      next absent =>
        exact ⟨rfl, fun _ => ⟨place, List.mem_cons_self, fun client is => absent client is⟩,
          fun _ is => by cases is⟩

theorem respond_responds (operation : Operation) :
    Responds home state pool operation (run (servers home) (respond pool operation) state) := by
  cases operation with
  | get key value =>
      exact (keyed_does home state pool key _ _ _ _ (get_about key value)
        (get_once [] key value)).responds home state pool fun _ => onOneServer_bind ..
  | set key value duration =>
      exact (keyed_does home state pool key _ _ _ _ (set_about key value duration 0)
        (set_once [] key value duration 0)).responds home state pool fun _ => onOneServer_bind ..
  | setNX key value =>
      exact (keyed_does home state pool key _ _ _ _ (set_about key value 0 2)
        (set_once [] key value 0 2)).responds home state pool fun _ => onOneServer_bind ..
  | delete key =>
      exact (keyed_does home state pool key _ _ _ _ (delete_about key)
        (delete_once [] key)).responds home state pool fun _ => onOneServer_bind ..
  | incrBy key increment rvalue =>
      exact (keyed_does home state pool key _ _ _ _ (incrBy_about key increment rvalue)
        (incrBy_once [] key increment rvalue)).responds home state pool fun _ =>
          onOneServer_bind ..
  | enQueue topic vals =>
      exact (keyed_does home state pool topic _ _ _ _ (rpush_about topic vals)
        (rpush_once [] topic vals)).responds home state pool fun _ => rfl
  | deQueue topic value =>
      exact (deQueue_does home state pool topic value).responds home state pool fun _ => rfl
  | deQueueAll key members =>
      exact (deQueueAll_does home state pool key members).responds home state pool fun _ => rfl
  | addToSet key value =>
      exact (keyed_does home state pool key _ _ _ _ (sadd_about key value)
        (sadd_once [] key value)).responds home state pool fun _ => onOneServer_bind ..
  | getMembers key members =>
      exact (keyed_does home state pool key _ _ _ _ (smembers_about key members)
        (smembers_once [] key members)).responds home state pool fun _ => onOneServer_bind ..
  | checkRedis =>
      obtain ⟨records, stops, keeps⟩ := CheckRedis_checks home state pool (List.range pool.length)
      have served := run_served home state (CheckRedis (List.range pool.length) pool)
      rw [respond, run_then, run_finish]
      refine ⟨fun is => ⟨?_, records⟩, fun returned kept is => ?_⟩
      · obtain ⟨place, member, lacks⟩ := stops (Option.map_eq_none_iff.mp is)
        have inside := List.mem_range.mp member
        cases found : pool[place] with
        | none => exact Or.inr (found ▸ List.getElem_mem inside)
        | some client => exact absurd (by rw [List.getElem?_eq_getElem inside, found]) (lacks client)
      · obtain ⟨left, found, both⟩ := Option.map_eq_some_iff.mp is
        cases both
        exact ⟨keeps _ found, Matched.idle _ records served⟩

theorem none_mem_iff {pool kept : Pool} (same : present kept = present pool) :
    none ∈ kept ↔ none ∈ pool := by
  have absent : ∀ pool : Pool, none ∈ pool ↔ false ∈ present pool := by
    intro pool
    simp [present]
  rw [absent, absent, same]

/-- As long as operations return, they return what they return on one server. -/
theorem respondAll_matched (all : List Operation) :
    let left := run (servers home) (respondAll all pool) state
    Matched pool.length home state left.2 left.1 (plainAll (all.take left.1.length)) ∧
      (pool ≠ [] → none ∉ pool → left.1.length = all.length) := by
  induction all generalizing state pool with
  | nil => exact ⟨Matched.idle _ rfl id, fun _ _ => rfl⟩
  | cons operation all ih =>
      have responds := respond_responds home state pool operation
      have served := run_served home state (respond pool operation)
      rw [respondAll, run_then]
      generalize run (servers home) (respond pool operation) state = left at responds served
      obtain ⟨left, middle⟩ := left
      rcases left with _ | ⟨returned, kept⟩
      · obtain ⟨lacks, records⟩ := responds.deleted rfl
        refine ⟨Matched.idle _ records served, fun some whole => ?_⟩
        exact absurd lacks (not_or.mpr ⟨some, whole⟩)
      · obtain ⟨same, matched⟩ := responds.done returned kept rfl
        obtain ⟨later, returns⟩ := ih middle kept
        rw [present_length same] at later
        simp only [run_then, run_finish]
        refine ⟨matched.both later (· :: ·), fun some whole => ?_⟩
        have some : kept ≠ [] := fun empty => some <| List.length_eq_zero_iff.mp <|
          (present_length same).symm.trans (by rw [empty, List.length_nil])
        exact congrArg (· + 1) (returns some (mt (none_mem_iff same).mp whole))

theorem Init_connects (confs : List RedisConf) :
    let left := run (servers home) (Init confs pool) state
    left.2.2 = state.2 ∧ left.1.length = pool.length + confs.length ∧
      (Served state.1 → none ∉ pool → none ∉ left.1) := by
  induction confs generalizing state pool with
  | nil => exact ⟨rfl, rfl, fun _ whole => whole⟩
  | cons conf confs ih =>
      have connects := Connect_connects home pool.length ⟨conf, false⟩ state
      rw [Init, run_then]
      generalize run (servers home) (RedisClient.Connect pool.length ⟨conf, false⟩) state = left
        at connects
      obtain ⟨⟨status, client⟩, middle⟩ := left
      obtain ⟨records, length, clients⟩ :=
        ih middle (pool ++ [if status = .ok then some client else none])
      refine ⟨records.trans connects.records, ?_, fun served whole => ?_⟩
      · rw [length, List.length_append, List.length_singleton, List.length_cons]
        omega
      · have good : status = .ok := of_decide_eq_true (connects.reaches served)
        apply clients (connects.served served)
        simp [good, whole]

end Operations

/-- Over any number of servers, and with any connections that break, are refused
or cannot be made, the operations of a cache return what they return on one
server with the records of them all, some of whose commands are lost or refused.
Every operation returns when `Init` has deleted no client; otherwise these are the
operations before one that finds a deleted client. When nothing happens to the
connections, no client is deleted and no command lost. -/
theorem sharded_cache_is_one_server (home : Nat → Nat) (confs : List RedisConf)
    (all : List Operation) (chances : Chances) (dbs : Nat → Db) (db : Db)
    (view : View confs.length home dbs db) :
    let left := run (servers home) (conversation confs all) (chances, dbs)
    ∃ fates server, plainAll (all.take left.1.length) (fates, db) = (left.1, server) ∧
      View confs.length home left.2.2 server.2 ∧
      (confs ≠ [] → none ∉ (run (servers home) (Init confs []) (chances, dbs)).1 →
        left.1.length = all.length) ∧
      (Served chances → Served fates ∧ (confs ≠ [] → left.1.length = all.length)) := by
  obtain ⟨records, length, clients⟩ := Init_connects home (chances, dbs) [] confs
  have served := run_served home (chances, dbs) (Init confs [])
  simp only [conversation, run_then]
  generalize run (servers home) (Init confs []) (chances, dbs) = left at records length clients served
  obtain ⟨pool, middle⟩ := left
  rw [List.length_nil, Nat.zero_add] at length
  obtain ⟨matched, returns⟩ := respondAll_matched home middle pool all
  rw [length] at matched
  have whole : Matched confs.length home (chances, dbs) _ _ _ := matched.preceded records served
  obtain ⟨after, ends, plays⟩ := whole.outcome db view
  obtain ⟨fates, runs, fated⟩ := plays fun _ => .served
  have some : confs ≠ [] → pool ≠ [] := by
    rintro some rfl
    exact some (List.length_eq_zero_iff.mp length.symm)
  refine ⟨fates, _, runs, ends, fun filled whole => returns (some filled) whole, fun all =>
    ⟨fated all fun _ => rfl, fun filled => returns (some filled) (clients all List.not_mem_nil)⟩⟩

/-- Two servers; the second connection breaks during a push that is carried out,
and the next read connects again. -/
def brokenPush : Chances
  | 5 => .unheard
  | _ => .served

def pushAndRead : List Operation :=
  [.set (ascii "alice...1") (ascii "5") 0, .enQueue (ascii "pool....2") [ascii "x"],
    .enQueue (ascii "pool....2") [ascii "y"], .deQueueAll (ascii "pool....2") [],
    .get (ascii "alice...1") []]

/-- The push that is reported as failed is read with the next one. -/
theorem sharded_cache_is_one_server_brokenPush :
    let left := run (servers id) (conversation [secretConf, secretConf] pushAndRead)
      (brokenPush, fun _ => ∅)
    left.1 = [.flag true, .flag false, .flag true, .members (true, [ascii "x", ascii "y"]),
        .text (true, ascii "5")] ∧
      left.1.length = pushAndRead.length ∧
      ∃ fates server, plainAll (pushAndRead.take left.1.length) (fates, ∅) = (left.1, server) ∧
        View 2 id left.2.2 server.2 := by
  obtain ⟨fates, server, returned, ends, every, -⟩ := sharded_cache_is_one_server id
    [secretConf, secretConf] pushAndRead brokenPush (fun _ => ∅) ∅ fun _ => rfl
  have connected : (run (servers id) (Init [secretConf, secretConf] [])
      (brokenPush, fun _ => ∅)).1 = [some ⟨secretConf, true⟩, some ⟨secretConf, true⟩] := by
    decide +kernel
  have outlived : none ∉ (run (servers id) (Init [secretConf, secretConf] [])
      (brokenPush, fun _ => ∅)).1 := by
    rw [connected]
    simp
  exact ⟨by decide +kernel, every (by simp) outlived, fates, server, returned, ends⟩

end FPayNode.ShardedCache
