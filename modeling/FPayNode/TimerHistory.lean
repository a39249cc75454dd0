import FPayNode.DueTimers

/-!
Where the handlers that `checkTimer` returns come from. Each node of the list
is traced back to the call that armed it, and each returned handler to the
node it was returned for.
-/

namespace FPayNode.TimerHistory

open CommandProgram Timers DueTimers

variable {Handler : Type} [DecidableEq Handler]

/-- The state after a sequence of calls, from the empty list. -/
def listAfter (calls : List (TimerCall Handler)) : TimerList Handler :=
  runAll timerMgmt Program.perform TimerList.empty calls

/-- The handlers that were returned, each with the place of the call that
returned it. -/
def occurrences (calls : List (TimerCall Handler)) : List (Nat × Handler) :=
  (results timerMgmt Program.perform TimerList.empty calls).zipIdx.flatMap
    fun returned => returned.1.map fun handler => (returned.2, handler)

/-- The call at a place armed the handler before it was returned, for less than
the ticks in between. -/
def Backs (calls : List (TimerCall Handler)) (occurrence : Nat × Handler) (arming : Nat) : Prop :=
  arming < occurrence.1 ∧ ∃ timeout, calls[arming]? = some (.addTimer timeout occurrence.2) ∧
    timeout.toInt < ticks ((calls.take (occurrence.1 + 1)).drop arming)

/-- A one-to-one match of what was returned with calls that armed it. -/
def Matched (calls : List (TimerCall Handler)) : Prop :=
  ∃ matching : List ((Nat × Handler) × Nat), matching.map Prod.fst = occurrences calls ∧
    (matching.map Prod.snd).Nodup ∧ ∀ pair ∈ matching, Backs calls pair.1 pair.2

/-- The call at a place armed a node of the list. -/
def Arms (calls : List (TimerCall Handler)) (node : TimerNode Handler) (arming : Nat) : Prop :=
  calls[arming]? = some (.addTimer node.expire node.handler) ∧
    node.elapsed.toInt = ticks (calls.take arming)

/-- The nodes that wait and the handlers that were returned have different
calls behind them. -/
structure Traced (calls : List (TimerCall Handler)) (pending : List (TimerNode Handler × Nat))
    (matching : List ((Nat × Handler) × Nat)) : Prop where
  nodes : pending.map Prod.fst = (listAfter calls)._timers
  returned : matching.map Prod.fst = occurrences calls
  arms : ∀ pair ∈ pending, Arms calls pair.1 pair.2
  backs : ∀ pair ∈ matching, Backs calls pair.1 pair.2
  distinct : (pending.map Prod.snd ++ matching.map Prod.snd).Nodup

/-! Longer histories. -/

omit [DecidableEq Handler] in
theorem ticks_append (earlier later : List (TimerCall Handler)) :
    ticks (earlier ++ later) = ticks earlier + ticks later := by
  induction earlier with
  | nil => exact (Int.zero_add _).symm
  | cons call earlier ih =>
      cases call with
      | addTimer timeout handler => exact ih
      | checkTimer tick =>
          simp only [List.cons_append, ticks, ih]
          omega

omit [DecidableEq Handler] in
/-- An arming is one of the calls. -/
theorem place_lt (calls : List (TimerCall Handler)) (place : Nat) (call : TimerCall Handler)
    (found : calls[place]? = some call) : place < calls.length :=
  (List.getElem?_eq_some_iff.mp found).1

omit [DecidableEq Handler] in
theorem arms_append (calls later : List (TimerCall Handler)) (node : TimerNode Handler)
    (arming : Nat) (arms : Arms calls node arming) : Arms (calls ++ later) node arming := by
  have inside := place_lt calls arming _ arms.1
  constructor
  · rw [List.getElem?_append_left inside]
    exact arms.1
  · rw [List.take_append_of_le_length (Nat.le_of_lt inside)]
    exact arms.2

omit [DecidableEq Handler] in
theorem backs_append (calls later : List (TimerCall Handler)) (occurrence : Nat × Handler)
    (arming : Nat) (inside : occurrence.1 < calls.length)
    (backs : Backs calls occurrence arming) : Backs (calls ++ later) occurrence arming := by
  obtain ⟨earlier, timeout, armed, passed⟩ := backs
  refine ⟨earlier, timeout, ?_, ?_⟩
  · rw [List.getElem?_append_left (place_lt calls arming _ armed)]
    exact armed
  · rw [List.take_append_of_le_length inside]
    exact passed

theorem listAfter_snoc (calls : List (TimerCall Handler)) (call : TimerCall Handler) :
    listAfter (calls ++ [call]) = (timerMgmt call (listAfter calls)).2 := by
  rw [listAfter, runAll_append]
  rfl

theorem results_length (timers : TimerList Handler) (calls : List (TimerCall Handler)) :
    (results timerMgmt Program.perform timers calls).length = calls.length := by
  induction calls generalizing timers with
  | nil => rfl
  | cons call calls ih => exact congrArg (· + 1) (ih _)

theorem occurrences_snoc (calls : List (TimerCall Handler)) (call : TimerCall Handler) :
    occurrences (calls ++ [call]) = occurrences calls ++
      (timerMgmt call (listAfter calls)).1.map fun handler => (calls.length, handler) := by
  rw [occurrences, results_append, List.zipIdx_append, List.flatMap_append]
  congr 1
  rw [results_length, Nat.zero_add]
  exact List.append_nil _

/-- What was returned was returned by one of the calls. -/
theorem occurrences_inside (calls : List (TimerCall Handler)) (occurrence : Nat × Handler)
    (member : occurrence ∈ occurrences calls) : occurrence.1 < calls.length := by
  obtain ⟨⟨handlers, place⟩, returned, here⟩ := List.mem_flatMap.mp member
  obtain ⟨handler, -, rfl⟩ := List.mem_map.mp here
  have bound := List.snd_lt_of_mem_zipIdx returned
  rwa [results_length, Nat.add_zero] at bound

/-! One call. -/

omit [DecidableEq Handler] in
theorem insertLoop_split (node : TimerNode Handler) (nodes : List (TimerNode Handler)) :
    ∃ front back, nodes = front ++ back ∧ insertLoop node nodes = front ++ node :: back := by
  induction nodes with
  | nil => exact ⟨[], [], rfl, rfl⟩
  | cons other rest ih =>
      simp only [insertLoop]
      split
      · exact ⟨[], other :: rest, rfl, rfl⟩
      · obtain ⟨front, back, parts, inserted⟩ := ih
        exact ⟨other :: front, back, by rw [parts]; rfl, by rw [inserted]; rfl⟩

omit [DecidableEq Handler] in
/-- What a due node was armed with is less than the ticks since then. -/
theorem due_backs (calls : List (TimerCall Handler)) (node : TimerNode Handler) (arming : Nat)
    (tick : Int32) (arms : Arms calls node arming) (due : Due (ticks calls + tick.toInt) node) :
    Backs (calls ++ [.checkTimer tick]) (calls.length, node.handler) arming := by
  have inside := place_lt calls arming _ arms.1
  have parts := ticks_append (calls.take arming) (calls.drop arming)
  rw [List.take_append_drop, ← arms.2] at parts
  refine ⟨inside, node.expire, ?_, ?_⟩
  · rw [List.getElem?_append_left inside]
    exact arms.1
  · have whole : (calls ++ [TimerCall.checkTimer tick]).take (calls.length + 1) =
        calls ++ [.checkTimer tick] := List.take_of_length_le (by simp)
    rw [whole, List.drop_append_of_le_length (Nat.le_of_lt inside), ticks_append]
    change _ < _ + (tick.toInt + 0)
    simp only [Due] at due
    omega

section Step
variable (calls : List (TimerCall Handler)) (pending : List (TimerNode Handler × Nat))
  (matching : List ((Nat × Handler) × Nat)) (traced : Traced calls pending matching)
include traced

theorem matched_inside (pair : (Nat × Handler) × Nat) (member : pair ∈ matching) :
    pair.1.1 < calls.length := by
  apply occurrences_inside
  rw [← traced.returned]
  exact List.mem_map_of_mem member

/-- The places behind a traced history are all in it, so the next one is new. -/
theorem next_unused :
    calls.length ∉ pending.map Prod.snd ++ matching.map Prod.snd := by
  intro used
  rcases List.mem_append.mp used with waiting | fired
  · obtain ⟨pair, member, same⟩ := List.mem_map.mp waiting
    have inside := place_lt calls pair.2 _ (traced.arms pair member).1
    omega
  · obtain ⟨pair, member, same⟩ := List.mem_map.mp fired
    obtain ⟨-, timeout, armed, -⟩ := traced.backs pair member
    have inside := place_lt calls pair.2 _ armed
    omega

theorem backs_kept (later : List (TimerCall Handler)) :
    ∀ pair ∈ matching, Backs (calls ++ later) pair.1 pair.2 := fun pair member =>
  backs_append calls later pair.1 pair.2 (matched_inside calls pending matching traced pair member)
    (traced.backs pair member)

/-- `addTimer` drops a node at most and adds one that it arms itself. -/
theorem addTimer_traced (timeout : Int32) (handler : Handler)
    (clock : (listAfter calls)._elapsed.toInt = ticks calls) :
    ∃ left, Traced (calls ++ [.addTimer timeout handler]) left matching := by
  have returned : matching.map Prod.fst = occurrences (calls ++ [.addTimer timeout handler]) := by
    rw [occurrences_snoc, traced.returned]
    exact (List.append_nil _).symm
  have backs := backs_kept calls pending matching traced [.addTimer timeout handler]
  have sublist := searchLoop_sublist timeout handler (listAfter calls)._timers
  rw [← traced.nodes] at sublist
  obtain ⟨kept, within, same⟩ := List.sublist_map_iff.mp sublist
  have arms : ∀ pair ∈ kept, Arms (calls ++ [.addTimer timeout handler]) pair.1 pair.2 :=
    fun pair member => arms_append calls _ _ _ (traced.arms pair (within.subset member))
  have distinct : (kept.map Prod.snd ++ matching.map Prod.snd).Nodup :=
    traced.distinct.sublist ((within.map Prod.snd).append_right _)
  have unused : calls.length ∉ kept.map Prod.snd ++ matching.map Prod.snd := fun used =>
    next_unused calls pending matching traced
      (((within.map Prod.snd).append_right _).subset used)
  have after := listAfter_snoc calls (.addTimer timeout handler)
  rw [show timerMgmt (.addTimer timeout handler) (listAfter calls) =
    ([], addTimer (listAfter calls) timeout handler) from rfl, addTimer] at after
  rw [traced.nodes] at same
  generalize searchLoop timeout handler (listAfter calls)._timers = searched at after same
  obtain ⟨ended, left⟩ := searched
  change left = kept.map Prod.fst at same
  cases ended with
  | true =>
      refine ⟨kept, ?_, returned, arms, backs, distinct⟩
      rw [after]
      exact same.symm
  | false =>
      obtain ⟨front, back, parts, inserted⟩ :=
        insertLoop_split ⟨timeout, (listAfter calls)._elapsed, handler⟩ left
      obtain ⟨first, last, split, rfl, rfl⟩ := List.map_eq_append_iff.mp (same.symm.trans parts)
      subst split
      refine ⟨first ++ (⟨timeout, (listAfter calls)._elapsed, handler⟩, calls.length) :: last,
        ?_, returned, fun pair member => ?_, backs, ?_⟩
      · rw [after, List.map_append, List.map_cons]
        exact inserted.symm
      · rcases List.mem_append.mp member with earlier | later
        · exact arms pair (List.mem_append_left _ earlier)
        · rcases List.mem_cons.mp later with rfl | behind
          · refine ⟨List.getElem?_concat_length, ?_⟩
            rw [List.take_left]
            exact clock
          · exact arms pair (List.mem_append_right _ behind)
      · rw [List.map_append, List.map_cons, List.append_assoc]
        rw [List.map_append, List.append_assoc] at distinct unused
        exact List.nodup_middle.mpr (List.nodup_cons.mpr ⟨unused, distinct⟩)

/-- `checkTimer` returns the nodes at the front, each one when it is due. -/
theorem checkTimer_traced (tick : Int32) (ordered : Ordered (ticks calls) (listAfter calls))
    (start : 0 ≤ ticks calls) (forward : 0 ≤ tick.toInt)
    (below : ticks calls + tick.toInt < 2 ^ 31) :
    ∃ left returned, Traced (calls ++ [.checkTimer tick]) left returned := by
  have clock := elapsed_add (listAfter calls) (ticks calls) tick ordered start forward below
  have scanned := List.takeWhile_append_dropWhile
    (p := isDue ((listAfter calls)._elapsed + tick)) (l := (listAfter calls)._timers)
  obtain ⟨fired, waiting, rfl, taken, kept⟩ :=
    List.map_eq_append_iff.mp (traced.nodes.trans scanned.symm)
  have backs := backs_kept calls _ matching traced [.checkTimer tick]
  have arms := traced.arms
  have distinct := traced.distinct
  refine ⟨waiting,
    matching ++ fired.map fun pair => ((calls.length, pair.1.handler), pair.2), ?_, ?_, ?_, ?_, ?_⟩
  · rw [listAfter_snoc]
    exact kept
  · rw [occurrences_snoc, List.map_append, traced.returned, List.map_map]
    congr 1
    change _ = ((List.takeWhile _ _).map TimerNode.handler).map _
    rw [← taken, List.map_map, List.map_map]
    rfl
  · exact fun pair member =>
      arms_append calls _ _ _ (arms pair (List.mem_append_right _ member))
  · intro pair member
    rcases List.mem_append.mp member with earlier | now
    · exact backs pair earlier
    · obtain ⟨⟨node, arming⟩, here, rfl⟩ := List.mem_map.mp now
      have nodeIn : node ∈ (listAfter calls)._timers.takeWhile
          (isDue ((listAfter calls)._elapsed + tick)) := by
        rw [← taken]
        exact List.mem_map_of_mem (f := Prod.fst) here
      have armed := ordered.armed node ((List.takeWhile_sublist _).mem nodeIn)
      have due := List.mem_takeWhile_imp nodeIn
      rw [isDue_iff _ _ node clock ⟨armed.1, by omega⟩, decide_eq_true_iff] at due
      exact due_backs calls node arming tick (arms _ (List.mem_append_left _ here)) due
  · rw [List.map_append, List.append_assoc] at distinct
    rw [List.map_append, List.map_map, ← List.append_assoc]
    exact (List.perm_append_comm.nodup_iff.mp distinct)

end Step

/-! Runs. -/

theorem listAfter_ordered (calls : List (TimerCall Handler)) (forward : ∀ call ∈ calls, Forward call)
    (below : ticks calls < 2 ^ 31) : Ordered (ticks calls) (listAfter calls) := by
  have ordered := timerMgmt_ordered calls TimerList.empty 0 empty_ordered (Int.le_refl 0) forward
    (by omega)
  rwa [Int.zero_add] at ordered

theorem history_traced (calls : List (TimerCall Handler)) (forward : ∀ call ∈ calls, Forward call)
    (below : ticks calls < 2 ^ 31) : ∃ pending matching, Traced calls pending matching := by
  induction calls using List.reverseRecOn with
  | nil => exact ⟨[], [], rfl, rfl, fun _ member => absurd member List.not_mem_nil,
      fun _ member => absurd member List.not_mem_nil, List.nodup_nil⟩
  | append_singleton calls call ih =>
      have earlier : ∀ other ∈ calls, Forward other := fun other member =>
        forward other (List.mem_append_left _ member)
      have here : Forward call := forward call (List.mem_append_right _ List.mem_cons_self)
      have passed := ticks_nonneg calls earlier
      rw [ticks_append] at below
      cases call with
      | addTimer timeout handler =>
          have within : ticks calls < 2 ^ 31 := by
            change ticks calls + 0 < _ at below
            omega
          obtain ⟨pending, matching, traced⟩ := ih earlier within
          obtain ⟨left, more⟩ := addTimer_traced calls pending matching traced timeout handler
            (listAfter_ordered calls earlier within).clock
          exact ⟨left, matching, more⟩
      | checkTimer tick =>
          change ticks calls + (tick.toInt + 0) < _ at below
          have forward : 0 ≤ tick.toInt := here
          have within : ticks calls < 2 ^ 31 := by omega
          obtain ⟨pending, matching, traced⟩ := ih earlier within
          exact checkTimer_traced calls pending matching traced tick
            (listAfter_ordered calls earlier within) passed forward (by omega)

omit [DecidableEq Handler] in
/-- A part of a history is no longer than the whole. -/
theorem ticks_take (calls : List (TimerCall Handler)) (forward : ∀ call ∈ calls, Forward call)
    (place : Nat) : ticks (calls.take place) ≤ ticks calls := by
  have parts := ticks_append (calls.take place) (calls.drop place)
  have rest := ticks_nonneg (calls.drop place) fun call member =>
    forward call (List.mem_of_mem_drop member)
  rw [List.take_append_drop] at parts
  omega

/-- In every sequence of calls, what `checkTimer` returns can be matched one to
one with earlier calls that armed the same handler for less than the ticks
since then, and after each call the list is sorted by its durations. -/
theorem timers_fire_once_and_late (calls : List (TimerCall Handler))
    (forward : ∀ call ∈ calls, Forward call) (below : ticks calls < 2 ^ 31) :
    Matched calls ∧ ∀ place, (listAfter (calls.take place))._timers.Pairwise
      fun earlier later => earlier.expire ≤ later.expire := by
  constructor
  · obtain ⟨pending, matching, traced⟩ := history_traced calls forward below
    exact ⟨matching, traced.returned, traced.distinct.sublist (List.sublist_append_right _ _),
      traced.backs⟩
  · intro place
    have ordered := listAfter_ordered (calls.take place)
      (fun call member => forward call (List.mem_of_mem_take member))
      ((ticks_take calls forward place).trans_lt below)
    refine ordered.sorted.imp fun before => ?_
    rcases before with less | ⟨same, -⟩
    · exact Int32.le_of_lt less
    · exact Int32.le_of_eq same

/-- A timer that is armed twice, with the same duration, and fires twice. -/
def twice : List (TimerCall Nat) :=
  [.addTimer 100 1, .checkTimer 60, .addTimer 100 1, .checkTimer 60, .checkTimer 60]

theorem timers_fire_once_and_late_twice : occurrences twice = [(3, 1), (4, 1)] ∧ Matched twice :=
  ⟨by decide, (timers_fire_once_and_late twice (by decide) (by decide)).1⟩

end FPayNode.TimerHistory
