import FPayNode.CommandProgram
import Mathlib.Data.List.Sublists

/-!
`core/xnet/TimerList.cpp`: timers in the order of their durations. `addTimer`
looks for a node of its handler and inserts a new one; `checkTimer` takes the
nodes that are due from the front. Times are `int`; a sum that leaves 32 bits
wraps around.
-/

namespace FPayNode.Timers

open CommandProgram

structure TimerNode (Handler : Type) where
  expire : Int32
  elapsed : Int32
  handler : Handler
  deriving DecidableEq

structure TimerList (Handler : Type) where
  _timers : List (TimerNode Handler)
  _elapsed : Int32
  deriving DecidableEq

variable {Handler : Type} [DecidableEq Handler]

def TimerList.empty : TimerList Handler := ⟨[], 0⟩

/-- The first loop of `addTimer`: whether the call returns from inside it, and
the list it leaves. -/
def searchLoop (timeout : Int32) (handler : Handler) :
    List (TimerNode Handler) → Bool × List (TimerNode Handler)
  | [] => (false, [])
  | node :: rest =>
      if node.handler = handler ∧ timeout > 0 ∧ timeout ≠ node.expire then (false, rest)
      else if node.handler = handler ∧ timeout < 0 then (true, rest)
      -- A node of the handler with the same duration is passed over.
      else ((searchLoop timeout handler rest).1, node :: (searchLoop timeout handler rest).2)

/-- The second loop: before the first node with a longer duration. -/
def insertLoop (node : TimerNode Handler) : List (TimerNode Handler) → List (TimerNode Handler)
  | [] => [node]
  | other :: rest =>
      if node.expire < other.expire then node :: other :: rest
      else other :: insertLoop node rest

def addTimer (timers : TimerList Handler) (timeout : Int32) (handler : Handler) :
    TimerList Handler :=
  match searchLoop timeout handler timers._timers with
  | (true, left) => { timers with _timers := left }
  -- Also a cancellation that found no node comes here.
  | (false, left) =>
      { timers with _timers := insertLoop ⟨timeout, timers._elapsed, handler⟩ left }

def isDue (elapsed : Int32) (node : TimerNode Handler) : Bool :=
  !(elapsed - node.elapsed ≤ node.expire)

/-- The due handlers, up to the first node that is not due. -/
def checkTimer (timers : TimerList Handler) (tick : Int32) :
    List Handler × TimerList Handler :=
  ((timers._timers.takeWhile (isDue (timers._elapsed + tick))).map TimerNode.handler,
    ⟨timers._timers.dropWhile (isDue (timers._elapsed + tick)), timers._elapsed + tick⟩)

inductive TimerCall (Handler : Type) where
  | addTimer (timeout : Int32) (handler : Handler)
  | checkTimer (tick : Int32)

def timerMgmt : Machine (TimerCall Handler) (List Handler) (TimerList Handler)
  | .addTimer timeout handler, timers => ([], addTimer timers timeout handler)
  | .checkTimer tick, timers => checkTimer timers tick

def nodesIn (handler : Handler) (nodes : List (TimerNode Handler)) : List (TimerNode Handler) :=
  nodes.filter fun node => node.handler = handler

def nodesOf (timers : TimerList Handler) (handler : Handler) : List (TimerNode Handler) :=
  nodesIn handler timers._timers

/-! What the two loops do to the nodes of one handler. -/

theorem nodesIn_cons_self (node : TimerNode Handler) (nodes : List (TimerNode Handler)) :
    nodesIn node.handler (node :: nodes) = node :: nodesIn node.handler nodes := by
  simp [nodesIn]

theorem nodesIn_cons_other (node : TimerNode Handler) (nodes : List (TimerNode Handler))
    (handler : Handler) (different : node.handler ≠ handler) :
    nodesIn handler (node :: nodes) = nodesIn handler nodes := by
  simp [nodesIn, different]

theorem searchLoop_others (timeout : Int32) (handler other : Handler) (different : other ≠ handler)
    (nodes : List (TimerNode Handler)) :
    nodesIn other (searchLoop timeout handler nodes).2 = nodesIn other nodes := by
  induction nodes with
  | nil => rfl
  | cons node rest ih =>
      have apart : node.handler = handler → node.handler ≠ other := fun mine same =>
        different (same.symm.trans mine)
      simp only [searchLoop]
      split
      · next found => exact (nodesIn_cons_other node rest other (apart found.1)).symm
      · split
        · next found => exact (nodesIn_cons_other node rest other (apart found.1)).symm
        · by_cases same : node.handler = other
          · subst other
            rw [nodesIn_cons_self, nodesIn_cons_self, ih]
          · rw [nodesIn_cons_other _ _ _ same, nodesIn_cons_other _ _ _ same, ih]

/-- Arming takes out the first node of the handler with another duration. -/
theorem searchLoop_arm (timeout : Int32) (handler : Handler) (positive : 0 < timeout)
    (nodes : List (TimerNode Handler)) :
    (searchLoop timeout handler nodes).1 = false ∧
      nodesIn handler (searchLoop timeout handler nodes).2 =
        (nodesIn handler nodes).eraseP fun node => timeout ≠ node.expire := by
  have notNegative : ¬ timeout < 0 := Int32.not_lt.mpr (Int32.le_of_lt positive)
  induction nodes with
  | nil => exact ⟨rfl, rfl⟩
  | cons node rest ih =>
      simp only [searchLoop, notNegative, and_false, ↓reduceIte]
      by_cases mine : node.handler = handler
      · subst handler
        rw [nodesIn_cons_self]
        by_cases same : timeout = node.expire
        · subst timeout
          simp only [ne_eq, not_true_eq_false, and_false, ↓reduceIte, decide_false,
            Bool.false_eq_true, not_false_eq_true, List.eraseP_cons_of_neg, nodesIn_cons_self]
          exact ⟨ih.1, by rw [ih.2]⟩
        · simp [same, positive]
      · simp only [mine, false_and, ↓reduceIte]
        rw [nodesIn_cons_other _ _ _ mine, nodesIn_cons_other _ _ _ mine]
        exact ih

/-- Cancelling takes out the first node of the handler, and ends the call if
there is one. -/
theorem searchLoop_cancel (timeout : Int32) (handler : Handler) (negative : timeout < 0)
    (nodes : List (TimerNode Handler)) :
    (searchLoop timeout handler nodes).1 = !(nodesIn handler nodes).isEmpty ∧
      nodesIn handler (searchLoop timeout handler nodes).2 = (nodesIn handler nodes).tail := by
  have notPositive : ¬ timeout > 0 := Int32.not_lt.mpr (Int32.le_of_lt negative)
  induction nodes with
  | nil => exact ⟨rfl, rfl⟩
  | cons node rest ih =>
      simp only [searchLoop, notPositive, false_and, and_false, ↓reduceIte, negative, and_true]
      by_cases mine : node.handler = handler
      · subst handler
        simp [nodesIn_cons_self]
      · simp only [mine, ↓reduceIte]
        rw [nodesIn_cons_other _ _ _ mine, nodesIn_cons_other _ _ _ mine]
        exact ih

theorem insertLoop_others (node : TimerNode Handler) (handler : Handler)
    (different : node.handler ≠ handler) (nodes : List (TimerNode Handler)) :
    nodesIn handler (insertLoop node nodes) = nodesIn handler nodes := by
  induction nodes with
  | nil => exact nodesIn_cons_other node [] handler different
  | cons other rest ih =>
      simp only [insertLoop]
      split
      · exact nodesIn_cons_other node _ handler different
      · by_cases same : other.handler = handler
        · subst handler
          rw [nodesIn_cons_self, nodesIn_cons_self, ih]
        · rw [nodesIn_cons_other _ _ _ same, nodesIn_cons_other _ _ _ same, ih]

omit [DecidableEq Handler] in
theorem insertLoop_perm (node : TimerNode Handler) (nodes : List (TimerNode Handler)) :
    (insertLoop node nodes).Perm (node :: nodes) := by
  induction nodes with
  | nil => exact List.Perm.refl _
  | cons other rest ih =>
      simp only [insertLoop]
      split
      · exact List.Perm.refl _
      · exact (ih.cons other).trans (List.Perm.swap node other rest)

theorem insertLoop_self (node : TimerNode Handler) (nodes : List (TimerNode Handler)) :
    (nodesIn node.handler (insertLoop node nodes)).Perm
      (node :: nodesIn node.handler nodes) := by
  rw [← nodesIn_cons_self]
  exact (insertLoop_perm node nodes).filter _

/-! One call. -/

theorem addTimer_others (timers : TimerList Handler) (timeout : Int32) (handler other : Handler)
    (different : other ≠ handler) :
    nodesOf (addTimer timers timeout handler) other = nodesOf timers other := by
  have searched := searchLoop_others timeout handler other different timers._timers
  simp only [addTimer, nodesOf]
  split
  · next left found =>
      rw [found] at searched
      exact searched
  · next left found =>
      rw [found] at searched
      rw [insertLoop_others _ _ (Ne.symm different), searched]

theorem addTimer_arm (timers : TimerList Handler) (timeout : Int32) (handler : Handler)
    (positive : 0 < timeout) :
    (nodesOf (addTimer timers timeout handler) handler).Perm
      (⟨timeout, timers._elapsed, handler⟩ ::
        (nodesOf timers handler).eraseP fun node => timeout ≠ node.expire) := by
  obtain ⟨goesOn, left⟩ := searchLoop_arm timeout handler positive timers._timers
  simp only [addTimer, nodesOf]
  split
  · next found =>
      rw [found] at goesOn
      cases goesOn
  · next found =>
      rw [found] at left
      rw [← left]
      exact insertLoop_self ⟨timeout, timers._elapsed, handler⟩ _

theorem addTimer_cancel (timers : TimerList Handler) (timeout : Int32) (handler : Handler)
    (negative : timeout < 0) (node : TimerNode Handler) (rest : List (TimerNode Handler))
    (armed : nodesOf timers handler = node :: rest) :
    nodesOf (addTimer timers timeout handler) handler = rest := by
  obtain ⟨returns, left⟩ := searchLoop_cancel timeout handler negative timers._timers
  rw [nodesOf] at armed
  rw [armed] at returns left
  simp only [addTimer, nodesOf]
  split
  · next found =>
      rw [found] at left
      exact left
  · next found =>
      rw [found] at returns
      cases returns

/-- Cancelling a timer that is not there leaves a node behind. -/
theorem addTimer_cancel_unarmed (timers : TimerList Handler) (timeout : Int32) (handler : Handler)
    (negative : timeout < 0) (unarmed : nodesOf timers handler = []) :
    nodesOf (addTimer timers timeout handler) handler ≠ [] := by
  obtain ⟨goesOn, -⟩ := searchLoop_cancel timeout handler negative timers._timers
  rw [nodesOf] at unarmed
  rw [unarmed] at goesOn
  simp only [addTimer, nodesOf]
  split
  · next found =>
      rw [found] at goesOn
      cases goesOn
  · intro empty
    have node := insertLoop_self ⟨timeout, timers._elapsed, handler⟩
      (searchLoop timeout handler timers._timers).2
    simp_all

theorem checkTimer_nodes (timers : TimerList Handler) (tick : Int32) (handler : Handler) :
    (nodesOf (checkTimer timers tick).2 handler).Sublist (nodesOf timers handler) :=
  (List.dropWhile_sublist _).filter _

/-! Runs. -/

def Single (timers : TimerList Handler) : Prop :=
  ∀ handler, (nodesOf timers handler).length ≤ 1

/-- What a call does to the nodes of its handler and of the others. -/
def Honoured (timers : TimerList Handler) : TimerCall Handler → Prop
  | .addTimer timeout handler =>
      (0 < timeout → nodesOf (addTimer timers timeout handler) handler =
        [⟨timeout, timers._elapsed, handler⟩]) ∧
      (timeout < 0 → nodesOf (addTimer timers timeout handler) handler = []) ∧
      ∀ other, other ≠ handler →
        nodesOf (addTimer timers timeout handler) other = nodesOf timers other
  | .checkTimer _ => True

/-- The call is honoured and leaves at most one node for each handler. -/
def Kept (timers : TimerList Handler) (call : TimerCall Handler) : Prop :=
  Single (timerMgmt call timers).2 ∧ Honoured timers call

/-- A timer is armed with a duration it is not armed with already, and
cancelled only while it is armed. -/
def Changes (timers : TimerList Handler) : TimerCall Handler → Prop
  | .addTimer timeout handler =>
      (0 < timeout → ∀ node ∈ nodesOf timers handler, node.expire ≠ timeout) ∧
      (timeout < 0 → nodesOf timers handler ≠ [])
  | .checkTimer _ => True

def NonZero : TimerCall Handler → Prop
  | .addTimer timeout _ => timeout ≠ 0
  | .checkTimer _ => True

instance : ∀ call : TimerCall Handler, Decidable (NonZero call)
  | .addTimer timeout _ => inferInstanceAs (Decidable (timeout ≠ 0))
  | .checkTimer _ => .isTrue trivial

theorem single_cases (timers : TimerList Handler) (single : Single timers) (handler : Handler) :
    nodesOf timers handler = [] ∨ ∃ node, nodesOf timers handler = [node] := by
  have short := single handler
  cases nodes : nodesOf timers handler with
  | nil => exact .inl rfl
  | cons node rest =>
      rw [nodes] at short
      have empty : rest = [] := List.length_eq_zero_iff.mp (by simpa using short)
      exact .inr ⟨node, by rw [empty]⟩

theorem honoured_iff (timers : TimerList Handler) (single : Single timers)
    (call : TimerCall Handler) : Honoured timers call ↔ Changes timers call := by
  cases call with
  | checkTimer tick => exact Iff.rfl
  | addTimer timeout handler =>
      simp only [Honoured, Changes]
      apply and_congr
      · apply imp_congr_right
        intro positive
        have perm := addTimer_arm timers timeout handler positive
        rcases single_cases timers single handler with none | ⟨node, one⟩
        · rw [none] at perm ⊢
          simpa using List.perm_singleton.mp perm
        · rw [one] at perm ⊢
          by_cases same : timeout = node.expire
          · constructor
            · intro armed
              rw [armed] at perm
              simpa [same] using perm.length_eq
            · intro differs
              exact absurd same.symm (differs node (by simp))
          · rw [List.eraseP_cons_of_pos (by simpa using same)] at perm
            simpa [Ne.symm same] using List.perm_singleton.mp perm
      · rw [and_iff_left fun other different =>
          addTimer_others timers timeout handler other different]
        apply imp_congr_right
        intro negative
        rcases single_cases timers single handler with none | ⟨node, one⟩
        · rw [none]
          simpa using addTimer_cancel_unarmed timers timeout handler negative none
        · simp [one, addTimer_cancel timers timeout handler negative node [] one]

/-- A call that is honoured adds no second node. -/
theorem honoured_single (timers : TimerList Handler) (single : Single timers)
    (call : TimerCall Handler) (nonZero : NonZero call) (honoured : Honoured timers call) :
    Single (timerMgmt call timers).2 := by
  intro other
  cases call with
  | checkTimer tick => exact (checkTimer_nodes timers tick other).length_le.trans (single other)
  | addTimer timeout handler =>
      change (nodesOf (addTimer timers timeout handler) other).length ≤ 1
      by_cases same : other = handler
      · subst other
        rcases Int32.lt_or_lt_of_ne nonZero with negative | positive
        · simp [honoured.2.1 negative]
        · simp [honoured.1 positive]
      · rw [honoured.2.2 other same]
        exact single other

theorem kept_iff (timers : TimerList Handler) (call : TimerCall Handler) (single : Single timers)
    (nonZero : NonZero call) : Kept timers call ↔ Changes timers call := by
  rw [Kept, ← honoured_iff timers single call]
  exact and_iff_right_of_imp (honoured_single timers single call nonZero)

/-- From the empty list, every call is honoured and leaves one node for each
handler at most, exactly when every call changes the timer it names. -/
theorem timers_kept_iff (calls : List (TimerCall Handler))
    (nonZero : ∀ call ∈ calls, NonZero call) :
    Throughout timerMgmt Program.perform Kept TimerList.empty calls ↔
      Throughout timerMgmt Program.perform Changes TimerList.empty calls := by
  apply throughout_congr timerMgmt Program.perform Single NonZero
  · exact kept_iff
  · exact fun timers call _ kept => kept.1
  · intro handler
    exact Nat.zero_le 1
  · exact nonZero

/-- A client connection, named by a number: it is armed for the connect, then
with its own timeout, and cancelled once it is connected. -/
def connecting : List (TimerCall Nat) :=
  [.addTimer 2000 1, .addTimer 600000 1, .checkTimer 500, .addTimer (-1) 1]

theorem timers_kept_iff_connecting :
    Throughout timerMgmt Program.perform Kept TimerList.empty connecting := by
  apply (timers_kept_iff connecting ?_).mpr
  · refine ⟨?_, ?_, trivial, ?_, trivial⟩
    · exact ⟨fun _ _ => by simp [TimerList.empty, nodesOf, nodesIn], by decide⟩
    · exact ⟨by decide, by decide⟩
    · exact ⟨by decide, by decide⟩
  · decide

/-- A connection whose timer went off is destroyed, and its destructor cancels
a timer that `checkTimer` has taken out already. -/
def timedOut : List (TimerCall Nat) := [.addTimer 600000 1, .checkTimer 600500, .addTimer (-1) 1]

theorem destroyed_connection_armed :
    ¬ Throughout timerMgmt Program.perform Kept TimerList.empty timedOut ∧
      nodesOf (runAll timerMgmt Program.perform TimerList.empty timedOut) 1 =
        [⟨-1, 600500, 1⟩] := by
  constructor
  · rintro ⟨-, -, ⟨-, -, none, -⟩, -⟩
    exact absurd (none (by decide)) (by decide)
  · decide

end FPayNode.Timers
