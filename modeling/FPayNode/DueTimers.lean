import FPayNode.Timers
import Mathlib.Data.List.TakeWhile
import Mathlib.Order.Basic
import Mathlib.Order.Defs.LinearOrder
import Mathlib.Algebra.Order.Ring.Int

/-!
Which timers `checkTimer` takes out. The list stands in the order of the
durations and the scan ends at the first node that is not due, so a due node
behind one that is not due yet is left in the list.
-/

namespace FPayNode.DueTimers

open CommandProgram Timers

section Scan
variable {Entry : Type} (taken : Entry → Bool)

theorem takeWhile_sublist_filter (entries : List Entry) :
    (entries.takeWhile taken).Sublist (entries.filter taken) := by
  have all : (entries.takeWhile taken).filter taken = entries.takeWhile taken := by
    rw [List.filter_eq_self]
    exact fun entry member => List.mem_takeWhile_imp member
  rw [← all]
  exact (List.takeWhile_sublist taken).filter taken

/-- A scan that ends at the first entry it does not take has taken all, when
none it would take stands behind one it would not. -/
theorem scan_complete_iff (entries : List Entry) :
    entries.takeWhile taken = entries.filter taken ↔
      entries.Pairwise fun earlier later => taken later → taken earlier := by
  induction entries with
  | nil => simp
  | cons entry rest ih =>
      by_cases first : taken entry = true
      · rw [List.takeWhile_cons_of_pos first, List.filter_cons_of_pos first, List.pairwise_cons,
          ← ih]
        simp [first]
      · rw [List.takeWhile_cons_of_neg first, List.filter_cons_of_neg first, List.pairwise_cons]
        -- The scan ends here, so it is complete when nothing behind is taken.
        constructor
        · intro none
          have untaken := List.filter_eq_nil_iff.mp none.symm
          constructor
          · exact fun later member takes => absurd takes (untaken later member)
          · exact List.pairwise_of_forall_mem_list fun _ _ later member takes =>
              absurd takes (untaken later member)
        · rintro ⟨behind, -⟩
          symm
          rw [List.filter_eq_nil_iff]
          exact fun later member takes => first (behind later member takes)

theorem dropWhile_eq_filter (entries : List Entry)
    (complete : entries.takeWhile taken = entries.filter taken) :
    entries.dropWhile taken = entries.filter fun entry => !taken entry := by
  induction entries with
  | nil => rfl
  | cons entry rest ih =>
      by_cases first : taken entry = true
      · rw [List.takeWhile_cons_of_pos first, List.filter_cons_of_pos first] at complete
        rw [List.dropWhile_cons_of_pos first, List.filter_cons_of_neg (by simp [first])]
        exact ih (List.cons_inj_right entry |>.mp complete)
      · rw [List.takeWhile_cons_of_neg first] at complete
        have untaken := List.filter_eq_nil_iff.mp complete.symm
        rw [List.dropWhile_cons_of_neg first]
        symm
        rw [List.filter_eq_self]
        exact fun other member => by simpa using untaken other member

end Scan

variable {Handler : Type} [DecidableEq Handler]

/-- The time that has passed since the node was armed exceeds its duration. -/
def Due (now : Int) (node : TimerNode Handler) : Prop :=
  now - node.elapsed.toInt > node.expire.toInt

instance (now : Int) (node : TimerNode Handler) : Decidable (Due now node) :=
  inferInstanceAs (Decidable (_ > _))

/-- `checkTimer` returns the handlers of the due nodes, one for each, and keeps
the other nodes. -/
def TakesDue (timers : TimerList Handler) (tick : Int32) : Prop :=
  (checkTimer timers tick).1.Perm ((timers._timers.filter fun node =>
      Due (timers._elapsed.toInt + tick.toInt) node).map TimerNode.handler) ∧
    (checkTimer timers tick).2._timers.Perm (timers._timers.filter fun node =>
      ¬ Due (timers._elapsed.toInt + tick.toInt) node)

/-- No node is due while one with a shorter duration is not. -/
def ShorterDueFirst (timers : TimerList Handler) (tick : Int32) : Prop :=
  ∀ shorter ∈ timers._timers, ∀ longer ∈ timers._timers, shorter.expire < longer.expire →
    Due (timers._elapsed.toInt + tick.toInt) longer →
      Due (timers._elapsed.toInt + tick.toInt) shorter

/-- Shorter durations first, and nodes of one duration as they were armed. -/
def Before (earlier later : TimerNode Handler) : Prop :=
  earlier.expire < later.expire ∨
    earlier.expire = later.expire ∧ earlier.elapsed ≤ later.elapsed

structure Ordered (now : Int) (timers : TimerList Handler) : Prop where
  clock : timers._elapsed.toInt = now
  sorted : timers._timers.Pairwise Before
  armed : ∀ node ∈ timers._timers, 0 ≤ node.elapsed.toInt ∧ node.elapsed.toInt ≤ now

def Forward : TimerCall Handler → Prop
  | .addTimer _ _ => True
  | .checkTimer tick => 0 ≤ tick.toInt

instance : ∀ call : TimerCall Handler, Decidable (Forward call)
  | .addTimer _ _ => .isTrue trivial
  | .checkTimer tick => inferInstanceAs (Decidable (0 ≤ tick.toInt))

def ticks : List (TimerCall Handler) → Int
  | [] => 0
  | .addTimer _ _ :: calls => ticks calls
  | .checkTimer tick :: calls => tick.toInt + ticks calls

/-! The order of the list. -/

theorem searchLoop_sublist (timeout : Int32) (handler : Handler)
    (nodes : List (TimerNode Handler)) :
    (searchLoop timeout handler nodes).2.Sublist nodes := by
  induction nodes with
  | nil => exact List.Sublist.refl _
  | cons node rest ih =>
      simp only [searchLoop]
      split
      · exact List.sublist_cons_self node rest
      · split
        · exact List.sublist_cons_self node rest
        · exact ih.cons_cons node

omit [DecidableEq Handler] in
theorem before_trans {first second third : TimerNode Handler} (front : Before first second)
    (back : Before second third) : Before first third := by
  simp only [Before, Int32.lt_iff_toInt_lt, Int32.le_iff_toInt_le, ← Int32.toInt_inj] at *
  omega

omit [DecidableEq Handler] in
theorem insertLoop_sorted (node : TimerNode Handler) (nodes : List (TimerNode Handler))
    (sorted : nodes.Pairwise Before) (latest : ∀ other ∈ nodes, other.elapsed ≤ node.elapsed) :
    (insertLoop node nodes).Pairwise Before := by
  induction nodes with
  | nil => exact List.pairwise_singleton _ _
  | cons other rest ih =>
      obtain ⟨front, back⟩ := List.pairwise_cons.mp sorted
      simp only [insertLoop]
      split
      · next shorter =>
          apply List.pairwise_cons.mpr
          refine ⟨fun later member => ?_, sorted⟩
          rcases List.mem_cons.mp member with same | behind
          · exact .inl (same ▸ shorter)
          · exact before_trans (.inl shorter) (front later behind)
      · next longer =>
          -- The node is armed last and goes behind the others of its duration.
          have precedes : Before other node := by
            rcases Int32.lt_or_eq_of_le (Int32.not_lt.mp longer) with less | same
            · exact .inl less
            · exact .inr ⟨same, latest other List.mem_cons_self⟩
          apply List.pairwise_cons.mpr
          constructor
          · intro later member
            rcases List.mem_cons.mp ((insertLoop_perm node rest).mem_iff.mp member) with
              same | behind
            · exact same ▸ precedes
            · exact front later behind
          · exact ih back fun later member => latest later (List.mem_cons_of_mem other member)

/-! One call. -/

theorem addTimer_ordered (timers : TimerList Handler) (now : Int) (timeout : Int32)
    (handler : Handler) (start : 0 ≤ now) (ordered : Ordered now timers) :
    Ordered now (addTimer timers timeout handler) := by
  have left := searchLoop_sublist timeout handler timers._timers
  simp only [addTimer]
  split
  · next found =>
      rw [found] at left
      exact ⟨ordered.clock, ordered.sorted.sublist left, fun node member =>
        ordered.armed node (left.subset member)⟩
  · next found =>
      rw [found] at left
      refine ⟨ordered.clock, ?_, fun node member => ?_⟩
      · apply insertLoop_sorted _ _ (ordered.sorted.sublist left)
        intro other member
        rw [Int32.le_iff_toInt_le, ordered.clock]
        exact (ordered.armed other (left.subset member)).2
      · rcases List.mem_cons.mp ((insertLoop_perm _ _).mem_iff.mp member) with same | old
        · subst same
          exact ⟨start.trans_eq ordered.clock.symm, ordered.clock.le⟩
        · exact ordered.armed node (left.subset old)

omit [DecidableEq Handler] in
theorem elapsed_add (timers : TimerList Handler) (now : Int) (tick : Int32)
    (ordered : Ordered now timers) (start : 0 ≤ now) (forward : 0 ≤ tick.toInt)
    (below : now + tick.toInt < 2 ^ 31) :
    (timers._elapsed + tick).toInt = now + tick.toInt := by
  rw [Int32.toInt_add, ordered.clock]
  exact Int.bmod_eq_of_le (by omega) (by omega)

omit [DecidableEq Handler] in
theorem checkTimer_ordered (timers : TimerList Handler) (now : Int) (tick : Int32)
    (ordered : Ordered now timers) (start : 0 ≤ now) (forward : 0 ≤ tick.toInt)
    (below : now + tick.toInt < 2 ^ 31) :
    Ordered (now + tick.toInt) (checkTimer timers tick).2 := by
  have left := List.dropWhile_sublist (isDue (timers._elapsed + tick)) (l := timers._timers)
  refine ⟨elapsed_add timers now tick ordered start forward below,
    ordered.sorted.sublist left, fun node member => ?_⟩
  have armed := ordered.armed node (left.subset member)
  omega

omit [DecidableEq Handler] in
theorem ticks_nonneg (calls : List (TimerCall Handler)) (forward : ∀ call ∈ calls, Forward call) :
    0 ≤ ticks calls := by
  induction calls with
  | nil => exact Int.le_refl 0
  | cons call calls ih =>
      have later := ih fun other member => forward other (List.mem_cons_of_mem call member)
      cases call with
      | addTimer timeout handler => exact later
      | checkTimer tick => exact Int.add_nonneg (forward _ List.mem_cons_self) later

theorem timerMgmt_ordered (calls : List (TimerCall Handler)) (timers : TimerList Handler)
    (now : Int) (ordered : Ordered now timers) (start : 0 ≤ now)
    (forward : ∀ call ∈ calls, Forward call) (below : now + ticks calls < 2 ^ 31) :
    Ordered (now + ticks calls) (runAll timerMgmt Program.perform timers calls) := by
  induction calls generalizing timers now with
  | nil => simpa [ticks] using ordered
  | cons call calls ih =>
      have later : ∀ call ∈ calls, Forward call := fun other member =>
        forward other (List.mem_cons_of_mem call member)
      cases call with
      | addTimer timeout handler =>
          exact ih _ now (addTimer_ordered timers now timeout handler start ordered) start later
            below
      | checkTimer tick =>
          have here : 0 ≤ tick.toInt := forward _ List.mem_cons_self
          have rest := ticks_nonneg calls later
          simp only [ticks] at below ⊢
          rw [← Int.add_assoc]
          apply ih _ (now + tick.toInt) _ (by omega) later (by omega)
          exact checkTimer_ordered timers now tick ordered start here (by omega)

/-! The scan of one call. -/

omit [DecidableEq Handler] in
/-- The comparison of the source does not wrap around. -/
theorem isDue_iff (now : Int) (elapsed : Int32) (node : TimerNode Handler)
    (clock : elapsed.toInt = now) (armed : 0 ≤ node.elapsed.toInt ∧ node.elapsed.toInt ≤ now) :
    isDue elapsed node = decide (Due now node) := by
  have difference : (elapsed - node.elapsed).toInt = now - node.elapsed.toInt := by
    have bound := elapsed.toInt_lt
    rw [Int32.toInt_sub, clock]
    exact Int.bmod_eq_of_le (by omega) (by omega)
  have same : ¬ elapsed - node.elapsed ≤ node.expire ↔ Due now node := by
    rw [Int32.le_iff_toInt_le, difference, Int.not_le]
    exact Iff.rfl
  rw [isDue, ← decide_not, decide_eq_decide]
  exact same

omit [DecidableEq Handler] in
/-- In the order of the list, only a shorter duration can keep a due node from
being reached. -/
theorem due_pairwise_iff (now : Int) (nodes : List (TimerNode Handler))
    (sorted : nodes.Pairwise Before) :
    nodes.Pairwise (fun earlier later => Due now later → Due now earlier) ↔
      ∀ shorter ∈ nodes, ∀ longer ∈ nodes, shorter.expire < longer.expire →
        Due now longer → Due now shorter := by
  induction nodes with
  | nil => simp
  | cons node rest ih =>
      obtain ⟨front, back⟩ := List.pairwise_cons.mp sorted
      rw [List.pairwise_cons, ih back]
      constructor
      · rintro ⟨first, others⟩ shorter shortMember longer longMember less due
        rcases List.mem_cons.mp shortMember with rfl | shortBehind
        · rcases List.mem_cons.mp longMember with rfl | longBehind
          · exact due
          · exact first longer longBehind due
        · rcases List.mem_cons.mp longMember with rfl | longBehind
          · have order := front shorter shortBehind
            simp only [Before, Int32.lt_iff_toInt_lt, Int32.le_iff_toInt_le,
              ← Int32.toInt_inj] at order less
            omega
          · exact others shorter shortBehind longer longBehind less due
      · intro all
        constructor
        · intro later member due
          rcases front later member with less | ⟨same, earlier⟩
          · exact all node List.mem_cons_self later (List.mem_cons_of_mem node member) less due
          · -- Of two nodes of one duration, the one armed earlier is due first.
            rw [Int32.le_iff_toInt_le] at earlier
            simp only [Due, same] at due ⊢
            omega
        · exact fun shorter shortMember longer longMember =>
            all shorter (List.mem_cons_of_mem node shortMember) longer
              (List.mem_cons_of_mem node longMember)

omit [DecidableEq Handler] in
theorem takesDue_iff (timers : TimerList Handler) (now : Int) (tick : Int32)
    (ordered : Ordered now timers) (start : 0 ≤ now) (forward : 0 ≤ tick.toInt)
    (below : now + tick.toInt < 2 ^ 31) :
    TakesDue timers tick ↔ ShorterDueFirst timers tick := by
  have due : ∀ node ∈ timers._timers, isDue (timers._elapsed + tick) node =
      decide (Due (timers._elapsed.toInt + tick.toInt) node) := by
    intro node member
    have armed := ordered.armed node member
    rw [ordered.clock]
    exact isDue_iff _ _ node (elapsed_add timers now tick ordered start forward below)
      ⟨armed.1, by omega⟩
  have taken := List.filter_congr due
  have kept : timers._timers.filter (fun node => !isDue (timers._elapsed + tick) node) =
      timers._timers.filter fun node => ¬ Due (timers._elapsed.toInt + tick.toInt) node :=
    List.filter_congr fun node member => by rw [due node member, decide_not]
  have scanned := (scan_complete_iff (isDue (timers._elapsed + tick)) timers._timers).trans
    ((List.Pairwise.iff_of_mem fun earlierIn laterIn => by
      rw [due _ earlierIn, due _ laterIn, decide_eq_true_iff, decide_eq_true_iff]).trans
      (due_pairwise_iff _ timers._timers ordered.sorted))
  rw [TakesDue, checkTimer, ShorterDueFirst, ← scanned, ← taken, ← kept]
  constructor
  · rintro ⟨handlers, -⟩
    apply (takeWhile_sublist_filter _ _).eq_of_length
    simpa using handlers.length_eq
  · intro complete
    rw [dropWhile_eq_filter _ _ complete, complete]
    exact ⟨List.Perm.refl _, List.Perm.refl _⟩

omit [DecidableEq Handler] in
theorem empty_ordered : Ordered 0 (TimerList.empty : TimerList Handler) :=
  ⟨rfl, List.Pairwise.nil, fun _ member => absurd member List.not_mem_nil⟩

/-- After every sequence of calls, the next one takes the due nodes exactly
when no node is due before one with a shorter duration. -/
theorem checkTimer_takes_due_iff (calls : List (TimerCall Handler)) (tick : Int32)
    (forward : ∀ call ∈ calls, Forward call) (next : 0 ≤ tick.toInt)
    (below : ticks calls + tick.toInt < 2 ^ 31) :
    TakesDue (runAll timerMgmt Program.perform TimerList.empty calls) tick ↔
      ShorterDueFirst (runAll timerMgmt Program.perform TimerList.empty calls) tick := by
  have passed := ticks_nonneg calls forward
  have ordered := timerMgmt_ordered calls TimerList.empty 0 empty_ordered (Int.le_refl 0) forward
    (by omega)
  rw [Int.zero_add] at ordered
  exact takesDue_iff _ _ tick ordered passed next below

/-- Two timers of one duration, armed one after the other. -/
def alike : List (TimerCall Nat) := [.addTimer 1000 1, .checkTimer 300, .addTimer 1000 2]

theorem checkTimer_takes_due_iff_alike :
    TakesDue (runAll timerMgmt Program.perform TimerList.empty alike) 800 ∧
      (checkTimer (runAll timerMgmt Program.perform TimerList.empty alike) 800).1 = [1] := by
  constructor
  · apply (checkTimer_takes_due_iff alike 800 (by decide) (by decide) (by decide)).mpr
    unfold ShorterDueFirst
    decide
  · decide

/-- A timer of one second, and one of half a second that is armed when the
first has a tenth of a second to go. -/
def starved : List (TimerCall Nat) := [.addTimer 1000 1, .checkTimer 900, .addTimer 500 2]

theorem due_timer_starved :
    ¬ TakesDue (runAll timerMgmt Program.perform TimerList.empty starved) 200 ∧
      (checkTimer (runAll timerMgmt Program.perform TimerList.empty starved) 200).1 = [] := by
  constructor
  · rintro ⟨handlers, -⟩
    exact absurd handlers.length_eq (by decide)
  · decide

end FPayNode.DueTimers
