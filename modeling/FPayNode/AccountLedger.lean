import FPayNode.NodeProcess
import FPayNode.RootTransaction

/-!
What a root node is for: a ledger of accounts that can be asked and paid from.
The ledger knows neither records nor commands nor 64-bit numbers. As long as its
balances have room in 64 bits, what a process answers to any order of requests
from any number of connections is what the ledger answers.
-/

namespace FPayNode.AccountLedger

open CommandProgram DecimalText RedisCache Messages NodeService RootTransaction
open RedisServer hiding Reply
open ChildNodes NodeRequests NodeProcess
open JsonFrames FrameDelivery RequestJson RequestDispatch
open BlockSync (queryBlockChain_issues)

/-- An account that was never paid has no balance. -/
structure Ledger (Account Payment : Type) where
  balance : Account → Option Int
  pool : List Payment

namespace Ledger
variable {Account Payment : Type} [DecidableEq Account]

def amount (ledger : Ledger Account Payment) (account : Account) : Int :=
  (ledger.balance account).getD 0

def change (ledger : Ledger Account Payment) (account : Account) (more : Int) :
    Ledger Account Payment where
  balance := Function.update ledger.balance account (some (ledger.amount account + more))
  pool := ledger.pool

def submit (ledger : Ledger Account Payment) (payment : Payment) : Ledger Account Payment :=
  { ledger with pool := ledger.pool ++ [payment] }

end Ledger

/-- The accounts of a node, and the transactions that wait for a block. -/
abbrev NodeLedger := Ledger Bytes Transaction

section Records
variable (config : Config) (forms : Forms)

/-- Every account is recorded as the decimal form of its balance. -/
def Recorded (db : Db) (balance : Bytes → Option Int) : Prop :=
  ∀ account, account ≠ [] → account ∉ controlKeys config →
    db.lookup account = (balance account).map (fun n => .string (decimal n)) ∧
      ∀ n, balance account = some n → Fits n

/-- The pool as it is, or not there while it is empty. -/
def Pooled (db : Db) (pool : List Transaction) : Prop :=
  db.lookup config.txPoolKey = some (.list (pool.map forms.transaction.toString)) ∨
    db.lookup config.txPoolKey = none ∧ pool = []

structure Refines (db : Db) (ledger : NodeLedger) : Prop where
  accounts : Recorded config db ledger.balance
  pool : Pooled config forms db ledger.pool

variable (node : FPService) (throws : Bytes → Bool) (around : Surroundings)

variable {Conn : Type}

/-- Nobody else changed the services. -/
def Undisturbed (log : List (Entry Conn)) : Prop :=
  ∀ entry ∈ log, ∀ change, entry ≠ .elsewhere change

variable [DecidableEq Conn]

end Records

/-! One wallet pays while another one asks. -/

end FPayNode.AccountLedger
