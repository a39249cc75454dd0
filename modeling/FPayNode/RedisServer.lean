import FPayNode.CommandProgram
import FPayNode.DecimalText
import FPayNode.Totals

/-!
The Redis commands the node issues, each one atomic, with the replies that
`RedisClient` distinguishes. A key holds a string, a list or a set. A command
on a record of another kind, and an `INCRBY` whose record is not the decimal
form of a number or whose result leaves 64 bits, is answered by an error and
changes nothing. Expiry is not modelled: locks are written without one and
blocks with the largest 32-bit number of seconds.
-/

namespace FPayNode.RedisServer

open DecimalText

inductive Value where
  | string (text : Bytes)
  | list (items : List Bytes)
  | set (members : List Bytes)
  deriving DecidableEq

abbrev Db := Finmap fun _ : Bytes => Value

inductive Existence where
  | always | xx | nx
  deriving DecidableEq

inductive Command where
  | get (key : Bytes)
  | set (key value : Bytes) (duration : UInt32) (condition : Existence)
  | del (key : Bytes)
  | incrBy (key : Bytes) (increment : Int64)
  | rpush (key : Bytes) (values : List Bytes)
  | lrange (key : Bytes) (start stop : Int)
  | sadd (key member : Bytes)
  | smembers (key : Bytes)
  deriving DecidableEq

inductive Reply where
  | status
  | nil
  | string (text : Bytes)
  | integer (n : Int)
  | array (items : List Bytes)
  | error
  deriving DecidableEq

/-- The number an `INCRBY` starts from; none when it refuses the record. -/
def counter : Option Value → Option Int
  | none => some 0
  | some (.string text) => parseExact text
  | some (.list _) => none
  | some (.set _) => none

def incremented (db : Db) (key : Bytes) (increment : Int64) : Option Int :=
  match counter (db.lookup key) with
  | none => none
  | some old => if Fits (old + increment.toInt) then some (old + increment.toInt) else none

/-- Negative positions count from the end of the list. -/
def slice (items : List Bytes) (start stop : Int) : List Bytes :=
  let length : Int := items.length
  let first := max 0 (if start < 0 then start + length else start)
  let last := if stop < 0 then stop + length else stop
  (items.drop first.toNat).take (last - first + 1).toNat

def exec : Command → Db → Reply × Db
  | .get key, db =>
      match db.lookup key with
      | none => (.nil, db)
      | some (.string text) => (.string text, db)
      | some _ => (.error, db)
  | .set key value _ condition, db =>
      match condition, db.lookup key with
      -- `XX` asks for a record and `NX` for none.
      | .xx, none => (.nil, db)
      | .nx, some _ => (.nil, db)
      | _, _ => (.status, db.insert key (.string value))
  | .del key, db => (.integer (if (db.lookup key).isSome then 1 else 0), db.erase key)
  | .incrBy key increment, db =>
      match incremented db key increment with
      | none => (.error, db)
      | some n => (.integer n, db.insert key (.string (decimal n)))
  | .rpush key values, db =>
      match db.lookup key with
      | none => (.integer values.length, db.insert key (.list values))
      | some (.list items) =>
          (.integer (items ++ values).length, db.insert key (.list (items ++ values)))
      | some _ => (.error, db)
  | .lrange key start stop, db =>
      match db.lookup key with
      | none => (.array [], db)
      | some (.list items) => (.array (slice items start stop), db)
      | some _ => (.error, db)
  | .sadd key member, db =>
      match db.lookup key with
      | none => (.integer 1, db.insert key (.set [member]))
      | some (.set members) =>
          if member ∈ members then (.integer 0, db)
          else (.integer 1, db.insert key (.set (members ++ [member])))
      | some _ => (.error, db)
  | .smembers key, db =>
      match db.lookup key with
      | none => (.array [], db)
      | some (.set members) => (.array members, db)
      | some _ => (.error, db)

/-- What a reader of a record's text takes for its number. -/
def reading : Option Value → Int
  | some (.string text) => atoll text
  | _ => 0

theorem reading_fits (record : Option Value) : Fits (reading record) := by
  simp only [reading]
  split
  · exact atoll_fits _
  · decide

theorem counter_reading (record : Option Value) (n : Int) (found : counter record = some n) :
    reading record = n := by
  cases record with
  | none =>
      cases found
      rfl
  | some value =>
      cases value with
      | string text => exact (parseExact_some text n found).1
      | list items => cases found
      | set members => cases found

/-- An accepted `INCRBY` adds exactly, without leaving 64 bits. -/
theorem incremented_some (db : Db) (key : Bytes) (increment : Int64) (n : Int)
    (accepted : incremented db key increment = some n) :
    n = reading (db.lookup key) + increment.toInt ∧ Fits n := by
  simp only [incremented] at accepted
  split at accepted
  · cases accepted
  · next old found =>
      rw [counter_reading _ _ found]
      split at accepted
      · next fits =>
          have value := Option.some.inj accepted
          subst value
          exact ⟨rfl, fits⟩
      · cases accepted

theorem incremented_isSome_iff (db : Db) (key : Bytes) (increment : Int64) :
    (incremented db key increment).isSome ↔
      (counter (db.lookup key)).isSome ∧ Fits (reading (db.lookup key) + increment.toInt) := by
  simp only [incremented]
  cases found : counter (db.lookup key) with
  | none => simp
  | some old =>
      rw [counter_reading _ _ found]
      by_cases fits : Fits (old + increment.toInt) <;> simp [fits]

/-- The database after an `INCRBY`, whatever it answered. -/
def afterIncr (db : Db) (key : Bytes) (increment : Int64) : Db :=
  (exec (.incrBy key increment) db).2

theorem exec_incrBy (db : Db) (key : Bytes) (increment : Int64) :
    exec (.incrBy key increment) db =
      (match incremented db key increment with
        | none => .error
        | some n => .integer n, afterIncr db key increment) := by
  simp only [afterIncr, exec]
  cases incremented db key increment <;> rfl

theorem afterIncr_refused (db : Db) (key : Bytes) (increment : Int64)
    (refused : incremented db key increment = none) : afterIncr db key increment = db := by
  simp [afterIncr, exec, refused]

theorem afterIncr_accepted (db : Db) (key : Bytes) (increment : Int64) (n : Int)
    (accepted : incremented db key increment = some n) :
    afterIncr db key increment = db.insert key (.string (decimal n)) := by
  simp [afterIncr, exec, accepted]

theorem afterIncr_lookup_other (db : Db) (key other : Bytes) (increment : Int64)
    (different : other ≠ key) :
    (afterIncr db key increment).lookup other = db.lookup other := by
  cases answer : incremented db key increment with
  | none => rw [afterIncr_refused db key increment answer]
  | some n =>
      rw [afterIncr_accepted db key increment n answer, Finmap.lookup_insert_of_ne _ different]

theorem afterIncr_reading (db : Db) (key other : Bytes) (increment : Int64) :
    reading ((afterIncr db key increment).lookup other) =
      reading (db.lookup other) +
        if other = key ∧ (incremented db key increment).isSome then increment.toInt else 0 := by
  by_cases same : other = key
  · subst other
    cases answer : incremented db key increment with
    | none => simp [afterIncr_refused db key increment answer]
    | some n =>
        obtain ⟨value, fits⟩ := incremented_some db key increment n answer
        rw [afterIncr_accepted db key increment n answer, Finmap.lookup_insert]
        simpa [reading, atoll_decimal n fits] using value
  · simp [afterIncr_lookup_other db key other increment same, same]

/-- The sum of what all records read as. -/
def worth (db : Db) : Int := Totals.total reading db

theorem worth_same (before after : Db)
    (alike : ∀ key, reading (after.lookup key) = reading (before.lookup key)) :
    worth after = worth before :=
  Totals.total_same reading rfl before after alike

-- The total moves by the change of the one record an `INCRBY` can write.
theorem afterIncr_worth (db : Db) (key : Bytes) (increment : Int64) :
    worth (afterIncr db key increment) =
      worth db + if (incremented db key increment).isSome then increment.toInt else 0 := by
  simp only [worth]
  rw [Totals.total_change reading rfl db (afterIncr db key increment) key]
  · have change := afterIncr_reading db key key increment
    simp only [true_and] at change
    omega
  · intro other different
    rw [afterIncr_lookup_other db key other increment different]

def afterPush (db : Db) (key : Bytes) (values : List Bytes) : Db :=
  (exec (.rpush key values) db).2

theorem afterPush_lookup_other (db : Db) (key other : Bytes) (values : List Bytes)
    (different : other ≠ key) :
    (afterPush db key values).lookup other = db.lookup other := by
  simp only [afterPush, exec]
  split
  · exact Finmap.lookup_insert_of_ne _ different
  · exact Finmap.lookup_insert_of_ne _ different
  · rfl

/-- Appending to a list never changes what any record reads as. -/
theorem afterPush_reading (db : Db) (key other : Bytes) (values : List Bytes) :
    reading ((afterPush db key values).lookup other) = reading (db.lookup other) := by
  by_cases same : other = key
  · subst other
    simp only [afterPush, exec]
    split
    · next absent => simp [reading, absent]
    · next items found => simp [reading, found]
    · rfl
  · rw [afterPush_lookup_other db key other values same]

/-! What commands leave alone. -/

theorem exec_get_db (db : Db) (key : Bytes) : (exec (.get key) db).2 = db := by
  simp only [exec]
  split <;> rfl

theorem exec_rpush_other (db : Db) (key other : Bytes) (values : List Bytes)
    (different : other ≠ key) : (exec (.rpush key values) db).2.lookup other = db.lookup other :=
  afterPush_lookup_other db key other values different

theorem exec_set_other (db : Db) (key value other : Bytes) (duration : UInt32)
    (condition : Existence) (different : other ≠ key) :
    (exec (.set key value duration condition) db).2.lookup other = db.lookup other := by
  simp only [exec]
  split
  · rfl
  · rfl
  · exact Finmap.lookup_insert_of_ne _ different

theorem exec_del_other (db : Db) (key other : Bytes) (different : other ≠ key) :
    (exec (.del key) db).2.lookup other = db.lookup other :=
  Finmap.lookup_erase_ne different

theorem exec_smembers_db (db : Db) (key : Bytes) : (exec (.smembers key) db).2 = db := by
  simp only [exec]
  split <;> rfl

theorem exec_lrange_db (db : Db) (key : Bytes) (start stop : Int) :
    (exec (.lrange key start stop) db).2 = db := by
  simp only [exec]
  split <;> rfl

theorem exec_sadd_other (db : Db) (key other member : Bytes) (different : other ≠ key) :
    (exec (.sadd key member) db).2.lookup other = db.lookup other := by
  simp only [exec]
  split
  · exact Finmap.lookup_insert_of_ne _ different
  · split
    · rfl
    · exact Finmap.lookup_insert_of_ne _ different
  · rfl

/-- Only its own deletion removes a record. -/
theorem exec_present (db : Db) (command : Command) (key : Bytes) (other : command ≠ .del key)
    (present : db.lookup key ≠ none) : (exec command db).2.lookup key ≠ none := by
  have inserted : ∀ place value, (db.insert place value).lookup key ≠ none := by
    intro place value
    by_cases same : key = place
    · subst same
      simp
    · rw [Finmap.lookup_insert_of_ne _ same]
      exact present
  cases command with
  | get name => rwa [exec_get_db]
  | lrange name start stop => rwa [exec_lrange_db]
  | smembers name => rwa [exec_smembers_db]
  | del name =>
      rwa [exec_del_other db name key fun same => other (by rw [same])]
  | set name value duration condition =>
      simp only [exec]
      split
      · exact present
      · exact present
      · exact inserted _ _
  | incrBy name increment =>
      simp only [exec]
      split
      · exact present
      · exact inserted _ _
  | rpush name values =>
      simp only [exec]
      split
      · exact inserted _ _
      · exact inserted _ _
      · exact present
  | sadd name member =>
      simp only [exec]
      split
      · exact inserted _ _
      · split
        · exact present
        · exact inserted _ _
      · exact present

/-- The items of a list record; a missing record is an empty list. -/
def itemsIn : Option Value → List Bytes
  | some (.list items) => items
  | _ => []

theorem afterPush_accepted (db : Db) (key : Bytes) (values : List Bytes)
    (accepted : (exec (.rpush key values) db).1 ≠ .error) :
    (afterPush db key values).lookup key = some (.list (itemsIn (db.lookup key) ++ values)) := by
  simp only [afterPush, exec] at accepted ⊢
  cases found : db.lookup key with
  | none => simp [itemsIn]
  | some value => cases value <;> simp [found, itemsIn] at accepted ⊢

theorem rpush_string (db : Db) (key text : Bytes) (values : List Bytes)
    (found : db.lookup key = some (.string text)) :
    (exec (.rpush key values) db).1 = .error := by
  simp [exec, found]

theorem afterIncr_string (db : Db) (key : Bytes) (increment : Int64)
    (accepted : (incremented db key increment).isSome) :
    ∃ text, (afterIncr db key increment).lookup key = some (.string text) := by
  obtain ⟨n, found⟩ := Option.isSome_iff_exists.mp accepted
  exact ⟨decimal n, by simp [afterIncr_accepted db key increment n found]⟩

theorem slice_all (items : List Bytes) : slice items 0 (-1) = items := by
  simp [slice]

/-- A whole list is read as it is, or the command is refused. -/
theorem lrange_all (db : Db) (key : Bytes)
    (accepted : (exec (.lrange key 0 (-1)) db).1 ≠ .error) :
    exec (.lrange key 0 (-1)) db = (.array (itemsIn (db.lookup key)), db) := by
  simp only [exec] at accepted ⊢
  cases found : db.lookup key with
  | none => rfl
  | some value => cases value <;> simp [found, itemsIn, slice_all] at accepted ⊢

end FPayNode.RedisServer
