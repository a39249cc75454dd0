import FPayNode.RedisServer

/-!
`cache/RedisClient.cpp` and `cache/RedisCache.cpp` as programs over Redis
commands. Out-parameters are passed in and returned. The answer `lost` stands
for every way in which a command has no reply: no connection, a failed
reconnection in `Dispatch`, or a connection that breaks. `Dispatch` chooses a
server by the key alone, so the servers behind one `RedisCache` are one key
space; two `RedisCache` objects share it when they name the same service.
-/

namespace FPayNode.RedisCache

open CommandProgram DecimalText RedisServer

inductive Effect where
  | redis (service : Bytes) (command : Command)
  | sendTo (ipport : Bytes) (uri : UInt8) (body : Bytes)
  deriving DecidableEq

inductive Answer where
  | reply (reply : Reply)
  | lost
  | sent
  | threw
  deriving DecidableEq

/-- The command was carried out and not refused. -/
def succeeded : Answer → Bool
  | .reply .error => false
  | .lost => false
  | _ => true

abbrev Calls := Program Effect Answer

abbrev Servers := Bytes → Db

/-- The services, and the route target: `throws` says for which addresses a
`sendTo` that is executed is left by an exception. -/
def serve (throws : Bytes → Bool) : Machine Effect Answer Servers
  | .redis service command, servers =>
      (.reply (exec command (servers service)).1,
        Function.update servers service (exec command (servers service)).2)
  | .sendTo ipport _ _, servers => (if throws ipport then .threw else .sent, servers)

/-- The same with an outcome of its own for each `sendTo`: `throws n` holds when
`n` commands were executed before. -/
def sending (throws : Nat → Bytes → Bool) : Machine Effect Answer (Servers × Nat) :=
  fun command state =>
    let served := serve (throws state.2) command state.1
    (served.1, served.2, state.2 + 1)

/-- A command leaves every record of every service that it does not touch. -/
theorem serve_lookup_apart (throws : Bytes → Bool) (shared : Servers)
    (observed service key : Bytes) (command : Command)
    (other : observed = service → ∀ db, (exec command db).2.lookup key = db.lookup key) :
    ((serve throws (.redis service command) shared).2 observed).lookup key =
      (shared observed).lookup key := by
  simp only [serve]
  by_cases same : observed = service
  · subst same
    rw [Function.update_self, other rfl]
  · rw [Function.update_of_ne same]

theorem serve_lookup_other (throws : Bytes → Bool) (shared : Servers)
    (observed service key : Bytes) (command : Command)
    (other : ∀ db, (exec command db).2.lookup key = db.lookup key) :
    ((serve throws (.redis service command) shared).2 observed).lookup key =
      (shared observed).lookup key :=
  serve_lookup_apart throws shared observed service key command fun _ => other

theorem serve_present (throws : Bytes → Bool) (shared : Servers) (service key : Bytes)
    (command : Effect) (other : command ≠ .redis service (.del key))
    (present : (shared service).lookup key ≠ none) :
    ((serve throws command shared).2 service).lookup key ≠ none := by
  cases command with
  | sendTo ipport uri body => exact present
  | redis observed command =>
      simp only [serve]
      by_cases same : service = observed
      · subst same
        rw [Function.update_self]
        exact exec_present _ command key (fun deletes => other (by rw [deletes])) present
      · rwa [Function.update_of_ne same]

/-- A `SET NX` is granted where there is no record, and does nothing otherwise. -/
theorem serve_setNX (throws : Bytes → Bool) (shared : Servers) (service key value : Bytes)
    (duration : UInt32) :
    serve throws (.redis service (.set key value duration .nx)) shared =
      if (shared service).lookup key = none then
        (.reply .status,
          Function.update shared service ((shared service).insert key (.string value)))
      else (.reply .nil, shared) := by
  cases found : (shared service).lookup key with
  | none => simp [serve, exec, found]
  | some record => simp [serve, exec, found]

inductive RedisStatus where
  | ok | connErr | protoErr | keyExistErr | undefineErr
  deriving DecidableEq

namespace RedisClient
variable (service : Bytes)

def get (key value : Bytes) : Calls (RedisStatus × Bytes) :=
  if key.isEmpty then pure (.protoErr, value)
  else do
    match ← Program.perform (.redis service (.get key)) with
    | .reply (.string text) => pure (.ok, text)
    -- Neither a missing key nor a record of another kind is an error here.
    | .reply _ => pure (.ok, value)
    | _ => pure (.connErr, value)

def existence (x : UInt32) : Existence :=
  if x = 0 then .always else if x = 1 then .xx else .nx

def set (key value : Bytes) (duration x : UInt32) : Calls RedisStatus :=
  if x > 2 || key.isEmpty then pure .protoErr
  else do
    -- A refused `SET NX` is told apart from other failures.
    match ← Program.perform (.redis service (.set key value duration (existence x))) with
    | .reply .nil => pure (if x = 2 then .keyExistErr else .undefineErr)
    | .reply .status => pure .ok
    | .reply _ => pure .undefineErr
    | _ => pure .connErr

def delete (key : Bytes) : Calls RedisStatus :=
  if key.isEmpty then pure .protoErr
  else do
    match ← Program.perform (.redis service (.del key)) with
    | .reply _ => pure .ok
    | _ => pure .connErr

def incrBy (key : Bytes) (increment rvalue : Int64) : Calls (RedisStatus × Int64) :=
  if key.isEmpty then pure (.protoErr, rvalue)
  else do
    match ← Program.perform (.redis service (.incrBy key increment)) with
    | .reply (.integer n) => pure (.ok, Int64.ofInt n)
    | .reply _ => pure (.undefineErr, rvalue)
    | _ => pure (.connErr, rvalue)

def rpush (key : Bytes) (vals : List Bytes) : Calls RedisStatus :=
  if key.isEmpty || vals.isEmpty then pure .protoErr
  else do
    match ← Program.perform (.redis service (.rpush key vals)) with
    | .reply (.integer _) => pure .ok
    | .reply _ => pure .undefineErr
    | _ => pure .connErr

def lrange (key : Bytes) (start stop : Int) (members : List Bytes) :
    Calls (RedisStatus × List Bytes) := do
  match ← Program.perform (.redis service (.lrange key start stop)) with
  | .reply (.array items) => pure (.ok, members ++ items)
  | .reply _ => pure (.undefineErr, members)
  | _ => pure (.connErr, members)

def sadd (key value : Bytes) : Calls RedisStatus := do
  match ← Program.perform (.redis service (.sadd key value)) with
  | .reply (.integer _) => pure .ok
  | .reply _ => pure .undefineErr
  | _ => pure .connErr

def smembers (key : Bytes) (members : List Bytes) : Calls (RedisStatus × List Bytes) := do
  match ← Program.perform (.redis service (.smembers key)) with
  | .reply (.array items) => pure (.ok, members ++ items)
  | .reply _ => pure (.undefineErr, members)
  | _ => pure (.connErr, members)

end RedisClient

section Cache
variable (service : Bytes)

def get (key value : Bytes) : Calls (Bool × Bytes) := do
  let (ret, value) ← RedisClient.get service key value
  pure (ret = .ok, value)

def set (key value : Bytes) (duration : UInt32) : Calls Bool := do
  let ret ← RedisClient.set service key value duration 0
  pure (ret = .ok)

def setNX (key value : Bytes) : Calls Bool := do
  let ret ← RedisClient.set service key value 0 2
  pure (ret = .ok)

def delete (key : Bytes) : Calls Bool := do
  let ret ← RedisClient.delete service key
  pure (ret = .ok)

def incrBy (key : Bytes) (increment rvalue : Int64) : Calls (Bool × Int64) := do
  let (ret, rvalue) ← RedisClient.incrBy service key increment rvalue
  pure (ret = .ok, rvalue)

def enQueue (topic value : Bytes) : Calls Bool := do
  let ret ← RedisClient.rpush service topic [value]
  pure (ret = .ok)

def deQueueAll (key : Bytes) (members : List Bytes) : Calls (Bool × List Bytes) := do
  let (ret, members) ← RedisClient.lrange service key 0 (-1) members
  -- Other clients can act between the read and the delete.
  if ret = .ok then
    let deleted ← delete service key
    pure (deleted, members)
  else pure (false, members)

def addToSet (key value : Bytes) : Calls Bool := do
  let ret ← RedisClient.sadd service key value
  pure (ret = .ok)

def getMembers (key : Bytes) (members : List Bytes) : Calls (Bool × List Bytes) := do
  let (ret, members) ← RedisClient.smembers service key members
  pure (ret = .ok, members)

end Cache

/-! Each operation as the one command it issues, if it issues one. -/

section Forms
variable (service : Bytes)

/-- The text a `GET` leaves in the caller's string; none when it fails. -/
def textOf (value : Bytes) : Answer → Bool × Bytes
  | .reply (.string text) => (true, text)
  | .reply _ => (true, value)
  | _ => (false, value)

theorem get_form (key value : Bytes) :
    get service key value =
      if key = [] then .finish (false, value)
      else .issue (.redis service (.get key)) fun answer => .finish (textOf value answer) := by
  simp only [get, RedisClient.get]
  by_cases empty : key = []
  · simp [empty]
  · simp only [List.isEmpty_iff, empty, ↓reduceIte, Program.perform_bind, Program.issue_bind]
    congr 1
    funext answer
    rcases answer with (_ | _ | _ | _ | _ | _) | _ | _ | _ <;> rfl

def incrOf (rvalue : Int64) : Answer → Bool × Int64
  | .reply (.integer n) => (true, Int64.ofInt n)
  | _ => (false, rvalue)

theorem incrBy_form (key : Bytes) (increment rvalue : Int64) :
    incrBy service key increment rvalue =
      if key = [] then .finish (false, rvalue)
      else .issue (.redis service (.incrBy key increment)) fun answer =>
        .finish (incrOf rvalue answer) := by
  simp only [incrBy, RedisClient.incrBy]
  by_cases empty : key = []
  · simp [empty]
  · simp only [List.isEmpty_iff, empty, ↓reduceIte, Program.perform_bind, Program.issue_bind]
    congr 1
    funext answer
    rcases answer with (_ | _ | _ | _ | _ | _) | _ | _ | _ <;> rfl

def integerAnswer : Answer → Bool
  | .reply (.integer _) => true
  | _ => false

theorem enQueue_form (topic value : Bytes) :
    enQueue service topic value =
      if topic = [] then .finish false
      else .issue (.redis service (.rpush topic [value])) fun answer =>
        .finish (integerAnswer answer) := by
  simp only [enQueue, RedisClient.rpush]
  by_cases empty : topic = []
  · simp [empty]
  · simp only [List.isEmpty_cons, Bool.or_false, List.isEmpty_iff, empty, ↓reduceIte,
      Program.perform_bind, Program.issue_bind]
    congr 1
    funext answer
    rcases answer with (_ | _ | _ | _ | _ | _) | _ | _ | _ <;> rfl

def statusAnswer : Answer → Bool
  | .reply .status => true
  | _ => false

theorem set_form (key value : Bytes) (duration : UInt32) :
    set service key value duration =
      if key = [] then .finish false
      else .issue (.redis service (.set key value duration .always)) fun answer =>
        .finish (statusAnswer answer) := by
  simp only [set, RedisClient.set]
  by_cases empty : key = []
  · simp [empty]
  · have plain : (decide ((0 : UInt32) > 2) || List.isEmpty key) = false := by simp [empty]
    simp only [plain, empty, Bool.false_eq_true, ↓reduceIte, Program.perform_bind,
      Program.issue_bind]
    congr 1
    funext answer
    rcases answer with (_ | _ | _ | _ | _ | _) | _ | _ | _ <;> rfl

theorem setNX_form (key value : Bytes) :
    setNX service key value =
      if key = [] then .finish false
      else .issue (.redis service (.set key value 0 .nx)) fun answer =>
        .finish (statusAnswer answer) := by
  simp only [setNX, RedisClient.set]
  by_cases empty : key = []
  · simp [empty]
  · have plain : (decide ((2 : UInt32) > 2) || List.isEmpty key) = false := by simp [empty]
    simp only [plain, empty, Bool.false_eq_true, ↓reduceIte, Program.perform_bind,
      Program.issue_bind]
    congr 1
    funext answer
    rcases answer with (_ | _ | _ | _ | _ | _) | _ | _ | _ <;> rfl

def anyReply : Answer → Bool
  | .reply _ => true
  | _ => false

theorem delete_form (key : Bytes) :
    delete service key =
      if key = [] then .finish false
      else .issue (.redis service (.del key)) fun answer => .finish (anyReply answer) := by
  simp only [delete, RedisClient.delete]
  by_cases empty : key = []
  · simp [empty]
  · simp only [List.isEmpty_iff, empty, ↓reduceIte, Program.perform_bind, Program.issue_bind]
    congr 1
    funext answer
    rcases answer with (_ | _ | _ | _ | _ | _) | _ | _ | _ <;> rfl

def itemsOf : Answer → Option (List Bytes)
  | .reply (.array items) => some items
  | _ => none

theorem deQueueAll_form (key : Bytes) (members : List Bytes) :
    deQueueAll service key members =
      .issue (.redis service (.lrange key 0 (-1))) fun answer =>
        match itemsOf answer with
        | none => .finish (false, members)
        | some items => delete service key >>= fun deleted =>
            .finish (deleted, members ++ items) := by
  simp only [deQueueAll, RedisClient.lrange]
  simp only [Program.perform_bind, Program.issue_bind]
  congr 1
  funext answer
  rcases answer with (_ | _ | _ | _ | _ | _) | _ | _ | _ <;> rfl

theorem addToSet_form (key value : Bytes) :
    addToSet service key value =
      .issue (.redis service (.sadd key value)) fun answer => .finish (integerAnswer answer) := by
  simp only [addToSet, RedisClient.sadd]
  simp only [Program.perform_bind, Program.issue_bind]
  congr 1
  funext answer
  rcases answer with (_ | _ | _ | _ | _ | _) | _ | _ | _ <;> rfl

theorem getMembers_form (key : Bytes) (members : List Bytes) :
    getMembers service key members =
      .issue (.redis service (.smembers key)) fun answer =>
        match itemsOf answer with
        | none => .finish (false, members)
        | some items => .finish (true, members ++ items) := by
  simp only [getMembers, RedisClient.smembers]
  simp only [Program.perform_bind, Program.issue_bind]
  congr 1
  funext answer
  rcases answer with (_ | _ | _ | _ | _ | _) | _ | _ | _ <;> rfl

end Forms

/-! What each operation issues. -/

section Issues
variable (holds : Effect → Prop) (service : Bytes)

theorem get_issues (key value : Bytes) (one : holds (.redis service (.get key))) :
    (get service key value).Issues holds := by
  rw [get_form]
  split
  · exact trivial
  · exact ⟨one, fun _ => trivial⟩

theorem set_issues (key value : Bytes) (duration : UInt32)
    (one : holds (.redis service (.set key value duration .always))) :
    (set service key value duration).Issues holds := by
  rw [set_form]
  split
  · exact trivial
  · exact ⟨one, fun _ => trivial⟩

theorem setNX_issues (key value : Bytes) (one : holds (.redis service (.set key value 0 .nx))) :
    (setNX service key value).Issues holds := by
  rw [setNX_form]
  split
  · exact trivial
  · exact ⟨one, fun _ => trivial⟩

theorem delete_issues (key : Bytes) (one : holds (.redis service (.del key))) :
    (delete service key).Issues holds := by
  rw [delete_form]
  split
  · exact trivial
  · exact ⟨one, fun _ => trivial⟩

theorem incrBy_issues (key : Bytes) (increment rvalue : Int64)
    (one : holds (.redis service (.incrBy key increment))) :
    (incrBy service key increment rvalue).Issues holds := by
  rw [incrBy_form]
  split
  · exact trivial
  · exact ⟨one, fun _ => trivial⟩

theorem enQueue_issues (topic value : Bytes) (one : holds (.redis service (.rpush topic [value]))) :
    (enQueue service topic value).Issues holds := by
  rw [enQueue_form]
  split
  · exact trivial
  · exact ⟨one, fun _ => trivial⟩

theorem addToSet_issues (key value : Bytes) (one : holds (.redis service (.sadd key value))) :
    (addToSet service key value).Issues holds := by
  rw [addToSet_form]
  exact ⟨one, fun _ => trivial⟩

theorem deQueueAll_issues (key : Bytes) (members : List Bytes)
    (read : holds (.redis service (.lrange key 0 (-1))))
    (deleted : holds (.redis service (.del key))) :
    (deQueueAll service key members).Issues holds := by
  rw [deQueueAll_form]
  refine ⟨read, fun answer => ?_⟩
  dsimp only
  cases itemsOf answer with
  | none => exact trivial
  | some items =>
      exact Program.issues_bind holds _ _ (delete_issues holds service key deleted)
        fun _ => trivial

end Issues
end FPayNode.RedisCache
