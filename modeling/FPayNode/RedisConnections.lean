import FPayNode.RedisCache

/-!
`cache/RedisClient.cpp` and `cache/RedisCache.cpp` with their connections: when
a client connects and authenticates, and what it sends on which connection. What
the client functions do with an answer is in `RedisCache`; here they run on a
connection that can be lost.
-/

namespace FPayNode.RedisConnections

open CommandProgram DecimalText RedisServer RedisCache

structure RedisConf where
  _host : Bytes
  _port : UInt16
  _passwd : Bytes
  _timeout : UInt32
  deriving DecidableEq

/-- `_context` says whether there is one. -/
structure RedisClient where
  _conf : RedisConf
  _context : Bool
  deriving DecidableEq

inductive RedisReply where
  | status (str : Bytes)
  | error (str : Bytes)
  | integer (integer : Int)
  | nil
  | string (str : Bytes)
  -- None is an element that is no string.
  | array (elements : List (Option Bytes))
  deriving DecidableEq

/-- What a client asks of its connection. -/
inductive Request where
  | connect (conf : RedisConf)
  | auth (passwd : Bytes)
  | ping
  | lpop (key : Bytes)
  | data (command : Command)
  deriving DecidableEq

/-- `connected` answers a connect without an error; `failed` stands for an
error of the connect and for a command without a reply. -/
inductive Outcome where
  | connected
  | failed
  | reply (reply : RedisReply)
  deriving DecidableEq

/-- Requests with the place of their client in the pool. -/
abbrev Connecting := Program (Nat × Request) Outcome

/-! A client. -/

def cString (text : Bytes) : Bytes := text.takeWhile fun byte => byte ≠ 0

/-- The `result` of an `AUTH`. -/
def authResult : RedisReply → Bytes
  | .status str => cString str
  -- For ssdb.
  | .array elements =>
      if elements.any fun item => item.any fun str =>
        cString str = ascii "ok" ∨ cString str = ascii "OK" ∨ cString str = ascii "1"
      then ascii "OK" else []
  | _ => []

def accepted (reply : RedisReply) : Bool := authResult reply = ascii "OK"

namespace RedisClient
variable (place : Nat)

def Disconnect (client : RedisClient) : RedisClient := { client with _context := false }

/-- The end of `Connect`, on a new context. A refused `AUTH` returns without a
`Disconnect`. -/
def authenticate (client : RedisClient) : Connecting (RedisStatus × RedisClient) :=
  if client._conf._passwd.length > 2 then
    .issue (place, .auth client._conf._passwd) fun
      | .reply reply =>
          if accepted reply then .finish (.ok, client) else .finish (.protoErr, client)
      | _ => .finish (.connErr, client.Disconnect)
  else .finish (.ok, client)

def Connect (client : RedisClient) : Connecting (RedisStatus × RedisClient) :=
  .issue (place, .connect client._conf) fun
    | .failed => .finish (.connErr, client.Disconnect)
    | _ => authenticate place { client with _context := true }

/-- The texts are compared by their addresses, so no reply is a `PONG`. -/
def Ping (client : RedisClient) : Connecting (Bool × RedisClient) :=
  if client._context then
    .issue (place, .ping) fun
      | .reply _ => .finish (false, client)
      | _ => .finish (false, client.Disconnect)
  else .finish (false, client)

/-- A reply as the client functions see it. -/
def seen : RedisReply → Reply
  | .status str => if cString str = ascii "OK" then .status else .error
  | .error _ => .error
  | .integer integer => .integer integer
  | .nil => .nil
  | .string str => .string str
  | .array elements => .array (elements.filterMap id)

/-- A client function on the connection: a lost reply disconnects. The client
functions send nothing to routes. -/
def onConnection : Calls Result → RedisClient → Connecting (Result × RedisClient)
  | .finish result, client => .finish (result, client)
  | .issue (.redis _ command) next, client =>
      .issue (place, .data command) fun
        | .reply reply => onConnection (next (.reply (seen reply))) client
        | _ => onConnection (next .lost) client.Disconnect
  | .issue (.sendTo _ _ _) next, client => onConnection (next .threw) client

/-- Each of them begins with the test of the context. -/
def call (unconnected : Result) (function : Calls Result) (client : RedisClient) :
    Connecting (Result × RedisClient) :=
  if client._context then client.onConnection place function else .finish (unconnected, client)

def LPop (key value : Bytes) (client : RedisClient) :
    Connecting ((RedisStatus × Bytes) × RedisClient) :=
  if client._context then
    .issue (place, .lpop key) fun
      | .reply (.string str) => .finish ((.ok, str), client)
      | .reply _ => .finish ((.ok, value), client)
      | _ => .finish ((.connErr, value), client.Disconnect)
  else .finish ((.connErr, value), client)

end RedisClient

/-! The pool. None is the pointer to a client that `Init` has deleted. -/

abbrev Pool := List (Option RedisClient)

/-- `Init`, for one server after another. -/
def Init : List RedisConf → Pool → Connecting Pool
  | [], pool => .finish pool
  | conf :: confs, pool =>
      (RedisClient.Connect pool.length ⟨conf, false⟩).bind fun (status, client) =>
        Init confs (pool ++ [if status = .ok then some client else none])

/-- The hash of a key from its eighth character on. A `char` is signed. -/
def hashOf (key : Bytes) : UInt32 :=
  (key.drop 7).foldl (fun hash char =>
    hash ^^^ ((hash <<< 5) + char.toInt8.toInt32.toUInt32 + (hash >>> 2))) 1315423911

def slotOf (pool : Pool) (key : Bytes) : Nat := (hashOf key &&& 0x7FFFFFFF).toNat % pool.length

/-- `Dispatch`: the client has a context, or is none when it cannot connect. -/
def ready (place : Nat) (client : RedisClient) : Connecting (Bool × RedisClient) :=
  if client._context then .finish (true, client)
  else (RedisClient.Connect place client).bind fun (status, client) =>
    .finish (status = .ok, client)

/-- A function on the client that `Dispatch` returns. What is done with a deleted
client is not known: none. -/
def onClient (pool : Pool) (key : Bytes) (unreached : Result)
    (function : Nat → RedisClient → Connecting (Result × RedisClient)) :
    Connecting (Option (Result × Pool)) :=
  let place := slotOf pool key
  match pool[place]? with
  | some (some client) => (ready place client).bind fun (reached, client) =>
      if reached then (function place client).bind fun (result, client) =>
        .finish (some (result, pool.set place (some client)))
      else .finish (some (unreached, pool.set place (some client)))
  | _ => .finish none

/-! The operations, with what they return and leave in the caller's variables. -/

section Operations
variable (pool : Pool)

/-- A client function on the client of a key, and the result of the operation. -/
def keyed (key : Bytes) (unreached : Final) (unconnected : Result) (function : Calls Result)
    (final : Result → Final) : Connecting (Option (Final × Pool)) :=
  onClient pool key unreached fun place client =>
    (RedisClient.call place unconnected function client).bind fun (result, client) =>
      .finish (final result, client)

def get (key value : Bytes) : Connecting (Option ((Bool × Bytes) × Pool)) :=
  keyed pool key (false, value) (.connErr, value) (RedisCache.RedisClient.get [] key value)
    fun (ret, value) => (ret = .ok, value)

def set (key value : Bytes) (duration : UInt32) : Connecting (Option (Bool × Pool)) :=
  keyed pool key false .connErr (RedisCache.RedisClient.set [] key value duration 0)
    fun ret => ret = .ok

def setNX (key value : Bytes) : Connecting (Option (Bool × Pool)) :=
  keyed pool key false .connErr (RedisCache.RedisClient.set [] key value 0 2) fun ret => ret = .ok

def delete (key : Bytes) : Connecting (Option (Bool × Pool)) :=
  keyed pool key false .connErr (RedisCache.RedisClient.delete [] key) fun ret => ret = .ok

def incrBy (key : Bytes) (increment rvalue : Int64) :
    Connecting (Option ((Bool × Int64) × Pool)) :=
  keyed pool key (false, rvalue) (.connErr, rvalue)
    (RedisCache.RedisClient.incrBy [] key increment rvalue) fun (ret, rvalue) => (ret = .ok, rvalue)

def enQueue (topic : Bytes) (vals : List Bytes) : Connecting (Option (Bool × Pool)) :=
  keyed pool topic false .connErr (RedisCache.RedisClient.rpush [] topic vals) fun ret => ret = .ok

def deQueue (topic value : Bytes) : Connecting (Option ((Bool × Bytes) × Pool)) :=
  onClient pool topic (false, value) fun place client =>
    (RedisClient.LPop place topic value client).bind fun ((ret, value), client) =>
      .finish ((ret = .ok, value), client)

/-- The delete goes through `Dispatch` again. -/
def deQueueAll (key : Bytes) (members : List Bytes) :
    Connecting (Option ((Bool × List Bytes) × Pool)) :=
  (keyed pool key (false, members) (.connErr, members)
    (RedisCache.RedisClient.lrange [] key 0 (-1) members)
    fun (ret, members) => (ret = .ok, members)).bind fun
      | some ((true, members), pool) => (delete pool key).bind fun deleted =>
          .finish (deleted.map fun (done, pool) => ((done, members), pool))
      | other => .finish other

def addToSet (key value : Bytes) : Connecting (Option (Bool × Pool)) :=
  keyed pool key false .connErr (RedisCache.RedisClient.sadd [] key value) fun ret => ret = .ok

def getMembers (key : Bytes) (members : List Bytes) :
    Connecting (Option ((Bool × List Bytes) × Pool)) :=
  keyed pool key (false, members) (.connErr, members)
    (RedisCache.RedisClient.smembers [] key members) fun (ret, members) => (ret = .ok, members)

end Operations

/-- `CheckRedis` on the clients of some places. -/
def CheckRedis : List Nat → Pool → Connecting (Option Pool)
  | [], pool => .finish (some pool)
  | place :: places, pool =>
      match pool[place]? with
      | some (some client) => (RedisClient.Ping place client).bind fun (answers, client) =>
          if answers then CheckRedis places (pool.set place (some client))
          else (RedisClient.Connect place client).bind fun (_, client) =>
            CheckRedis places (pool.set place (some client))
      | _ => .finish none

inductive Operation where
  | get (key value : Bytes)
  | set (key value : Bytes) (duration : UInt32)
  | setNX (key value : Bytes)
  | delete (key : Bytes)
  | incrBy (key : Bytes) (increment rvalue : Int64)
  | enQueue (topic : Bytes) (vals : List Bytes)
  | deQueue (topic value : Bytes)
  | deQueueAll (key : Bytes) (members : List Bytes)
  | addToSet (key value : Bytes)
  | getMembers (key : Bytes) (members : List Bytes)
  | checkRedis

/-- The pool that a program leaves, whatever it returns. -/
def poolOf (program : Connecting (Option (Result × Pool))) : Connecting (Option Pool) :=
  program.bind fun left => .finish (left.map Prod.snd)

def operate (pool : Pool) : Operation → Connecting (Option Pool)
  | .get key value => poolOf (get pool key value)
  | .set key value duration => poolOf (set pool key value duration)
  | .setNX key value => poolOf (setNX pool key value)
  | .delete key => poolOf (delete pool key)
  | .incrBy key increment rvalue => poolOf (incrBy pool key increment rvalue)
  | .enQueue topic vals => poolOf (enQueue pool topic vals)
  | .deQueue topic value => poolOf (deQueue pool topic value)
  | .deQueueAll key members => poolOf (deQueueAll pool key members)
  | .addToSet key value => poolOf (addToSet pool key value)
  | .getMembers key members => poolOf (getMembers pool key members)
  | .checkRedis => CheckRedis (List.range pool.length) pool

/-- Operations one after another, until one of them uses a deleted client. -/
def operations : List Operation → Pool → Connecting (Option Pool)
  | [], pool => .finish (some pool)
  | operation :: rest, pool => (operate pool operation).bind fun
      | some pool => operations rest pool
      | none => .finish none

/-- A cache from its beginning. -/
def session (confs : List RedisConf) (all : List Operation) : Connecting (Option Pool) :=
  (Init confs []).bind (operations all)

/-! What a place of the pool has: a connection whose `AUTH` has succeeded. -/

def track (authenticated : Nat → Bool) : Nat × Request → Outcome → Nat → Bool
  | (place, .connect _), _ => Function.update authenticated place false
  | (place, .auth _), .reply reply =>
      if accepted reply then Function.update authenticated place true else authenticated
  | _, .reply _ => authenticated
  -- Without a reply there is no connection any more.
  | (place, _), _ => Function.update authenticated place false

/-- Data is only asked for where it has. -/
def admits (authenticated : Nat → Bool) : Nat × Request → Prop
  | (place, .data _) | (place, .lpop _) => authenticated place = true
  | _ => True

instance (authenticated : Nat → Bool) : ∀ request, Decidable (admits authenticated request)
  | (_, .data _) | (_, .lpop _) => inferInstanceAs (Decidable (_ = _))
  | (_, .connect _) | (_, .auth _) | (_, .ping) => .isTrue trivial

/-- No data command is issued on a connection whose `AUTH` has not succeeded. -/
abbrev Authorised (entries : List ((Nat × Request) × Outcome)) : Prop :=
  Monitored track admits (fun _ => false) entries

/-- An `AUTH` that is answered is accepted. -/
def authAccepted : Nat × Request → Outcome → Bool
  | (_, .auth _), .reply reply => accepted reply
  | _, _ => true

/-! On its connection a client function does what it does in `RedisCache`. -/

section Functions
variable {State : Type} (machine : Machine (Nat × Request) Outcome State)

/-- The connection of a place as the client functions see it. -/
def through (place : Nat) : Machine Effect Answer State
  | .redis _ command, state =>
      let answered := machine (place, .data command) state
      (match answered.1 with
        | .reply reply => .reply (RedisClient.seen reply)
        | _ => .lost, answered.2)
  | .sendTo _ _ _, state => (.threw, state)

theorem onConnection_run (place : Nat) (function : Calls Result) (client : RedisClient)
    (state : State) :
    let left := run machine (client.onConnection place function) state
    (left.1.1, left.2) = run (through machine place) function state := by
  induction function generalizing client state with
  | finish result => rfl
  | issue effect next ih =>
      cases effect with
      | sendTo _ _ _ => exact ih .threw client state
      | redis route command =>
          rw [RedisClient.onConnection, run_issue, run_issue, through]
          cases (machine (place, .data command) state).1 with
          | reply reply => exact ih _ client _
          | connected => exact ih .lost client.Disconnect _
          | failed => exact ih .lost client.Disconnect _

end Functions

/-! Clients. -/

/-- A client with a password that only has a context it has authenticated. -/
structure Trusted (authenticated : Nat → Bool) (place : Nat) (client : RedisClient) : Prop where
  secret : client._conf._passwd.length > 2
  context : client._context = true → authenticated place = true

/-- What a function may do to a client: to its connection, and to no other. -/
structure Leaves (place : Nat) (before after : Nat → Bool) (client : RedisClient) : Prop where
  trusted : Trusted after place client
  others : ∀ other, other ≠ place → after other = before other

abbrev Behaves (place : Nat) (before after : Nat → Bool) (left : Result × RedisClient) : Prop :=
  Leaves place before after left.2

/-- The program asks for data only where it may, as long as each `AUTH` that is
answered is accepted. -/
abbrev Safe (post : (Nat → Bool) → Result → Prop) (program : Connecting Result)
    (authenticated : Nat → Bool) : Prop :=
  program.Guards track admits (fun request outcome => authAccepted request outcome) post authenticated

/-- A client function asks for one thing at most. -/
def AsksOnce : Calls Result → Prop
  | .finish _ => True
  | .issue _ next => ∀ answer, ∃ result, next answer = .finish result

section Functions
variable (route key value : Bytes)

theorem get_once : AsksOnce (RedisCache.RedisClient.get route key value) := by
  rw [RedisCache.RedisClient.get]
  split
  · trivial
  · intro answer
    cases answer with
    | reply reply => cases reply <;> exact ⟨_, rfl⟩
    | _ => exact ⟨_, rfl⟩

theorem set_once (duration x : UInt32) :
    AsksOnce (RedisCache.RedisClient.set route key value duration x) := by
  rw [RedisCache.RedisClient.set]
  split
  · trivial
  · intro answer
    cases answer with
    | reply reply => cases reply <;> exact ⟨_, rfl⟩
    | _ => exact ⟨_, rfl⟩

theorem delete_once : AsksOnce (RedisCache.RedisClient.delete route key) := by
  rw [RedisCache.RedisClient.delete]
  split
  · trivial
  · intro answer
    cases answer <;> exact ⟨_, rfl⟩

theorem incrBy_once (increment rvalue : Int64) :
    AsksOnce (RedisCache.RedisClient.incrBy route key increment rvalue) := by
  rw [RedisCache.RedisClient.incrBy]
  split
  · trivial
  · intro answer
    cases answer with
    | reply reply => cases reply <;> exact ⟨_, rfl⟩
    | _ => exact ⟨_, rfl⟩

theorem rpush_once (vals : List Bytes) :
    AsksOnce (RedisCache.RedisClient.rpush route key vals) := by
  rw [RedisCache.RedisClient.rpush]
  split
  · trivial
  · intro answer
    cases answer with
    | reply reply => cases reply <;> exact ⟨_, rfl⟩
    | _ => exact ⟨_, rfl⟩

theorem lrange_once (start stop : Int) (members : List Bytes) :
    AsksOnce (RedisCache.RedisClient.lrange route key start stop members) := by
  intro answer
  cases answer with
  | reply reply => cases reply <;> exact ⟨_, rfl⟩
  | _ => exact ⟨_, rfl⟩

theorem sadd_once : AsksOnce (RedisCache.RedisClient.sadd route key value) := by
  intro answer
  cases answer with
  | reply reply => cases reply <;> exact ⟨_, rfl⟩
  | _ => exact ⟨_, rfl⟩

theorem smembers_once (members : List Bytes) :
    AsksOnce (RedisCache.RedisClient.smembers route key members) := by
  intro answer
  cases answer with
  | reply reply => cases reply <;> exact ⟨_, rfl⟩
  | _ => exact ⟨_, rfl⟩

end Functions

section Clients
variable (place : Nat) (client : RedisClient) (authenticated : Nat → Bool)

theorem update_leaves (value : Bool) (secret : client._conf._passwd.length > 2)
    (context : client._context = true → value = true) :
    Leaves place authenticated (Function.update authenticated place value) client where
  trusted := ⟨secret, fun is => (Function.update_self ..).trans (context is)⟩
  others := fun _ apart => Function.update_of_ne apart ..

theorem authenticate_safe (secret : client._conf._passwd.length > 2) :
    Safe (Behaves place authenticated) (RedisClient.authenticate place client)
      (Function.update authenticated place false) := by
  have lost : Leaves place authenticated (Function.update authenticated place false)
      client.Disconnect :=
    update_leaves place client.Disconnect authenticated false secret id
  rw [RedisClient.authenticate, if_pos secret]
  refine ⟨trivial, fun answer isExpected => ?_⟩
  cases answer with
  | connected =>
      simp only [track, Function.update_idem]
      exact lost
  | failed =>
      simp only [track, Function.update_idem]
      exact lost
  | reply reply =>
      have answered : accepted reply = true := isExpected
      simp only [answered, ↓reduceIte, track, Function.update_idem]
      exact update_leaves place client authenticated true secret fun _ => rfl

/-- However the connect ends, a context that is left is authenticated. -/
theorem Connect_safe (secret : client._conf._passwd.length > 2) :
    Safe (Behaves place authenticated) (RedisClient.Connect place client) authenticated := by
  refine ⟨trivial, fun outcome _ => ?_⟩
  cases outcome with
  | failed =>
      exact update_leaves place client.Disconnect authenticated false secret id
  | connected => exact authenticate_safe place { client with _context := true } _ secret
  | reply _ => exact authenticate_safe place { client with _context := true } _ secret

section Answered
variable {place : Nat} {client : RedisClient} {authenticated : Nat → Bool}
variable (trusted : Trusted authenticated place client)
include trusted

theorem Trusted.leaves : Leaves place authenticated authenticated client :=
  ⟨trusted, fun _ _ => rfl⟩

theorem Trusted.disconnect :
    Leaves place authenticated (Function.update authenticated place false) client.Disconnect :=
  update_leaves place client.Disconnect authenticated false trusted.secret id

end Answered

theorem Ping_safe (trusted : Trusted authenticated place client) :
    Safe (Behaves place authenticated) (RedisClient.Ping place client) authenticated := by
  rw [RedisClient.Ping]
  split
  · refine ⟨trivial, fun answer _ => ?_⟩
    cases answer with
    | connected => exact trusted.disconnect
    | failed => exact trusted.disconnect
    | reply _ => exact trusted.leaves
  · exact trusted.leaves

theorem onConnection_safe (function : Calls Result) (once : AsksOnce function)
    (trusted : Trusted authenticated place client) (authentic : authenticated place = true) :
    Safe (Behaves place authenticated) (client.onConnection place function)
      authenticated := by
  cases function with
  | finish result => exact trusted.leaves
  | issue effect next =>
      cases effect with
      | sendTo _ _ _ =>
          obtain ⟨result, ends⟩ := once .threw
          rw [RedisClient.onConnection, ends]
          exact trusted.leaves
      | redis route command =>
          obtain ⟨result, lost⟩ := once .lost
          rw [RedisClient.onConnection]
          refine ⟨authentic, fun answer _ => ?_⟩
          cases answer with
          | connected => simp only [lost]; exact trusted.disconnect
          | failed => simp only [lost]; exact trusted.disconnect
          | reply reply =>
              obtain ⟨result, ends⟩ := once (.reply (RedisClient.seen reply))
              simp only [ends]
              exact trusted.leaves

theorem call_safe (unconnected : Result) (function : Calls Result) (once : AsksOnce function)
    (trusted : Trusted authenticated place client) :
    Safe (Behaves place authenticated) (RedisClient.call place unconnected function client)
      authenticated := by
  rw [RedisClient.call]
  split
  next context =>
    exact onConnection_safe place client authenticated function once trusted
      (trusted.context context)
  · exact trusted.leaves

theorem LPop_safe (key value : Bytes) (trusted : Trusted authenticated place client) :
    Safe (Behaves place authenticated) (RedisClient.LPop place key value client)
      authenticated := by
  rw [RedisClient.LPop]
  split
  next context =>
    refine ⟨trusted.context context, fun answer _ => ?_⟩
    cases answer with
    | connected => exact trusted.disconnect
    | failed => exact trusted.disconnect
    | reply reply => cases reply <;> exact trusted.leaves
  · exact trusted.leaves

theorem ready_safe (trusted : Trusted authenticated place client) :
    Safe (Behaves place authenticated) (ready place client) authenticated := by
  rw [ready]
  split
  · exact trusted.leaves
  · exact (Connect_safe place client authenticated trusted.secret).bind fun _ _ leaves => leaves

end Clients

/-! Pools. -/

def TrustedPool (authenticated : Nat → Bool) (pool : Pool) : Prop :=
  ∀ place client, pool[place]? = some (some client) → Trusted authenticated place client

section Pools
variable {place : Nat} {before middle after : Nat → Bool} {client : RedisClient} {pool : Pool}

theorem Leaves.trans {between : RedisClient} (first : Leaves place before middle between)
    (second : Leaves place middle after client) : Leaves place before after client :=
  ⟨second.trusted, fun other apart => (second.others other apart).trans (first.others other apart)⟩

theorem Leaves.elsewhere (leaves : Leaves place before after client) {other : Nat}
    {bystander : RedisClient} (apart : other ≠ place)
    (trusted : Trusted before other bystander) : Trusted after other bystander :=
  ⟨trusted.secret, fun context => (leaves.others other apart).trans (trusted.context context)⟩

theorem TrustedPool.set (trusted : TrustedPool before pool)
    (leaves : Leaves place before after client) :
    TrustedPool after (pool.set place (some client)) := by
  intro other held found
  rw [List.getElem?_set] at found
  split at found
  · next same =>
      split at found
      · cases found
        exact same ▸ leaves.trusted
      · cases found
  · next apart => exact leaves.elsewhere (Ne.symm apart) (trusted other held found)

/-- The client that `Init` puts at the end, or none. -/
theorem TrustedPool.append (trusted : TrustedPool before pool)
    (leaves : Leaves pool.length before after client) (entered : Option RedisClient)
    (is : ∀ held, entered = some held → held = client) :
    TrustedPool after (pool ++ [entered]) := by
  intro other held found
  rcases Nat.lt_trichotomy other pool.length with inside | last | outside
  · rw [List.getElem?_append_left inside] at found
    exact leaves.elsewhere (Nat.ne_of_lt inside) (trusted other held found)
  · subst last
    rw [List.getElem?_concat_length, Option.some.injEq] at found
    exact is held found ▸ leaves.trusted
  · rw [List.getElem?_eq_none (by simpa using outside)] at found
    cases found

end Pools

/-- What an operation leaves is a pool to trust, unless it used a deleted client. -/
abbrev Keeps (after : Nat → Bool) (left : Option (Result × Pool)) : Prop :=
  ∀ final pool, left = some (final, pool) → TrustedPool after pool

abbrev Leaving (after : Nat → Bool) (left : Option Pool) : Prop :=
  ∀ pool, left = some pool → TrustedPool after pool

theorem poolOf_safe (program : Connecting (Option (Result × Pool))) (authenticated : Nat → Bool)
    (safe : Safe Keeps program authenticated) : Safe Leaving (poolOf program) authenticated := by
  apply safe.bind
  intro after left kept pool is
  obtain ⟨⟨final, pool⟩, same, rfl⟩ := Option.map_eq_some_iff.mp is
  exact kept final pool same

section Operations
variable (pool : Pool) (authenticated : Nat → Bool) (trusted : TrustedPool authenticated pool)
include trusted

theorem onClient_safe (key : Bytes) (unreached : Result)
    (function : Nat → RedisClient → Connecting (Result × RedisClient))
    (safe : ∀ place client middle, Trusted middle place client →
      Safe (Behaves place middle) (function place client) middle) :
    Safe Keeps (onClient pool key unreached function) authenticated := by
  rw [onClient]
  split
  next client found =>
    have held := trusted _ client found
    apply Program.Guards.bind (ready_safe _ client authenticated held)
    rintro middle ⟨reached, client⟩ ready
    dsimp only
    split
    · apply Program.Guards.bind (safe _ client middle ready.trusted)
      rintro after ⟨result, client⟩ leaves final other is
      cases is
      exact trusted.set (ready.trans leaves)
    · rintro final other is
      cases is
      exact trusted.set ready
  · rintro final other is
    cases is

theorem keyed_safe (key : Bytes) (unreached : Final) (unconnected : Result)
    (function : Calls Result) (final : Result → Final) (once : AsksOnce function) :
    Safe Keeps (keyed pool key unreached unconnected function final) authenticated := by
  apply onClient_safe pool authenticated trusted
  intro place client middle held
  exact (call_safe place client middle unconnected function once held).bind fun _ _ leaves => leaves

theorem deQueue_safe (topic value : Bytes) :
    Safe Keeps (deQueue pool topic value) authenticated := by
  apply onClient_safe pool authenticated trusted
  intro place client middle held
  exact (LPop_safe place client middle topic value held).bind fun _ _ leaves => leaves

theorem delete_safe (key : Bytes) : Safe Keeps (delete pool key) authenticated :=
  keyed_safe pool authenticated trusted key _ _ _ _ (delete_once [] key)

theorem deQueueAll_safe (key : Bytes) (members : List Bytes) :
    Safe Keeps (deQueueAll pool key members) authenticated := by
  apply Program.Guards.bind (keyed_safe pool authenticated trusted key _ _ _ _
    (lrange_once [] key 0 (-1) members))
  intro middle left kept
  split
  next members pool =>
    apply Program.Guards.bind (delete_safe pool middle (kept _ pool rfl) key)
    rintro after deleted kept final other is
    cases deleted with
    | none => cases is
    | some deleted =>
        cases is
        exact kept _ _ rfl
  · exact kept

end Operations

/-- `Ping` may disconnect before `Connect` connects again. -/
theorem CheckRedis_safe (places : List Nat) (pool : Pool) (authenticated : Nat → Bool)
    (trusted : TrustedPool authenticated pool) :
    Safe Leaving (CheckRedis places pool) authenticated := by
  induction places generalizing pool authenticated with
  | nil =>
      intro left is
      cases is
      exact trusted
  | cons place places ih =>
      rw [CheckRedis]
      split
      next client found =>
        have held := trusted place client found
        apply Program.Guards.bind (Ping_safe place client authenticated held)
        rintro middle ⟨answers, client⟩ pinged
        dsimp only
        split
        · exact ih _ middle (trusted.set pinged)
        · apply Program.Guards.bind (Connect_safe place client middle pinged.trusted.secret)
          rintro after ⟨status, client⟩ leaves
          exact ih _ after (trusted.set (pinged.trans leaves))
      · intro left is
        cases is

theorem operate_safe (pool : Pool) (operation : Operation) (authenticated : Nat → Bool)
    (trusted : TrustedPool authenticated pool) :
    Safe Leaving (operate pool operation) authenticated := by
  cases operation with
  | checkRedis => exact CheckRedis_safe _ pool authenticated trusted
  | deQueue topic value => exact poolOf_safe _ _ (deQueue_safe pool authenticated trusted topic value)
  | deQueueAll key members =>
      exact poolOf_safe _ _ (deQueueAll_safe pool authenticated trusted key members)
  | delete key => exact poolOf_safe _ _ (delete_safe pool authenticated trusted key)
  | get key value =>
      exact poolOf_safe _ _ (keyed_safe pool authenticated trusted _ _ _ _ _ (get_once [] key value))
  | set key value duration =>
      exact poolOf_safe _ _
        (keyed_safe pool authenticated trusted _ _ _ _ _ (set_once [] key value duration 0))
  | setNX key value =>
      exact poolOf_safe _ _
        (keyed_safe pool authenticated trusted _ _ _ _ _ (set_once [] key value 0 2))
  | incrBy key increment rvalue =>
      exact poolOf_safe _ _ (keyed_safe pool authenticated trusted _ _ _ _ _
        (incrBy_once [] key increment rvalue))
  | enQueue topic vals =>
      exact poolOf_safe _ _
        (keyed_safe pool authenticated trusted _ _ _ _ _ (rpush_once [] topic vals))
  | addToSet key value =>
      exact poolOf_safe _ _ (keyed_safe pool authenticated trusted _ _ _ _ _ (sadd_once [] key value))
  | getMembers key members =>
      exact poolOf_safe _ _
        (keyed_safe pool authenticated trusted _ _ _ _ _ (smembers_once [] key members))

theorem operations_safe (all : List Operation) (pool : Pool) (authenticated : Nat → Bool)
    (trusted : TrustedPool authenticated pool) :
    Safe Leaving (operations all pool) authenticated := by
  induction all generalizing pool authenticated with
  | nil =>
      intro left is
      cases is
      exact trusted
  | cons operation all ih =>
      apply Program.Guards.bind (operate_safe pool operation authenticated trusted)
      intro middle left kept
      cases left with
      | none =>
          intro left is
          cases is
      | some pool => exact ih pool middle (kept pool rfl)

theorem Init_safe (confs : List RedisConf) (pool : Pool) (authenticated : Nat → Bool)
    (secret : ∀ conf ∈ confs, conf._passwd.length > 2)
    (trusted : TrustedPool authenticated pool) :
    Safe TrustedPool (Init confs pool) authenticated := by
  induction confs generalizing pool authenticated with
  | nil => exact trusted
  | cons conf confs ih =>
      apply Program.Guards.bind (Connect_safe pool.length ⟨conf, false⟩ authenticated (secret conf List.mem_cons_self))
      rintro middle ⟨status, client⟩ leaves
      apply ih _ middle (fun other member => secret other (List.mem_cons_of_mem conf member))
      apply trusted.append leaves
      intro held entered
      split at entered
      · exact (Option.some.inj entered).symm
      · cases entered

theorem session_safe (confs : List RedisConf) (all : List Operation)
    (secret : ∀ conf ∈ confs, conf._passwd.length > 2) :
    Safe Leaving (session confs all) fun _ => false := by
  have empty : TrustedPool (fun _ => false) [] := fun _ _ found => by cases found
  apply Program.Guards.bind (Init_safe confs [] _ secret empty)
  exact fun middle pool trusted => operations_safe all pool middle trusted

/-- Whatever happens to connects, authentications and commands, and whatever is
asked of the cache: as long as each `AUTH` that is answered is accepted, no data
command is issued on a connection whose `AUTH` has not succeeded. -/
theorem data_after_auth {State : Type} (machine : Machine (Nat × Request) Outcome State)
    (state : State) (confs : List RedisConf) (all : List Operation)
    (secret : ∀ conf ∈ confs, conf._passwd.length > 2)
    (answers : ∀ entry ∈ trace machine (session confs all) state, authAccepted entry.1 entry.2) :
    Authorised (trace machine (session confs all) state) :=
  monitored_trace track admits _ machine _ Leaving _ state (session_safe confs all secret) answers

/-- Outcomes that come from a list, until all are used. -/
def scripted : Machine (Nat × Request) Outcome (List Outcome)
  | _, [] => (.failed, [])
  | _, outcome :: outcomes => (outcome, outcomes)

def secretConf : RedisConf := ⟨ascii "cache", 6379, ascii "secret", 1000⟩

/-- The reply to a read is lost, and the next one connects and authenticates
again. -/
theorem data_after_auth_reconnects :
    let all := [.get (ascii "balance1") [], .get (ascii "balance1") []]
    let outcomes := [.connected, .reply (.status (ascii "OK")), .failed, .connected,
      .reply (.status (ascii "OK")), .reply (.string (ascii "5"))]
    Authorised (trace scripted (session [secretConf] all) outcomes) :=
  data_after_auth scripted _ _ _ (by decide +kernel) (by decide +kernel)

/-- The `AUTH` of the new connection is refused. The read that asked for it
fails, and the next one is sent all the same. -/
theorem read_after_refused_auth :
    let all := [.get (ascii "balance1") [], .get (ascii "balance1") [], .get (ascii "balance1") []]
    let outcomes := [.connected, .reply (.status (ascii "OK")), .failed, .connected,
      .reply (.error (ascii "ERR invalid password"))]
    secretConf._passwd.length > 2 ∧
      ¬ Authorised (trace scripted (session [secretConf] all) outcomes) := by
  decide +kernel

end FPayNode.RedisConnections
