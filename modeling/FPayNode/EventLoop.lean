import FPayNode.Timers

/-!
`core/xnet/IOLoop.cpp`: the callbacks of one turn of the loop. `poll` calls the
handlers that `epoll_wait` reported, `checkTimeout` the handlers whose timers
are due; both lists are fixed before the first callback runs. A callback is
modelled by what it does to the loop, in order; which callback does what is an
input of the batch.
-/

namespace FPayNode.EventLoop

open CommandProgram Timers

inductive Action (Handler : Type) where
  | addTimer (timeout : Int32) (handler : Handler)
  | addEvent (handler : Handler)
  | destroy (handler : Handler)
  deriving DecidableEq

/-- `destroyed` is kept for the statements: the handlers whose destructors have
run since the batch began. -/
structure IOLoop (Handler : Type) where
  _sockets : List Handler
  _timerMgmt : TimerList Handler
  m_elapsed : Int32
  destroyed : List Handler

inductive SockEvent where
  | read | write | timeout
  deriving DecidableEq

/-- A callback and the loop it is called in. -/
structure Call (Handler : Type) where
  handler : Handler
  event : SockEvent
  loop : IOLoop Handler

structure EpollEvent (Handler : Type) where
  events : UInt32
  ptr : Handler

def EPOLLIN : UInt32 := 0x1

def EPOLLOUT : UInt32 := 0x4

def EPOLLERR : UInt32 := 0x8

def EPOLLHUP : UInt32 := 0x10

variable {Handler : Type} [DecidableEq Handler]

def act (loop : IOLoop Handler) : Action Handler → IOLoop Handler
  | .addTimer timeout handler =>
      { loop with _timerMgmt := addTimer loop._timerMgmt timeout handler }
  | .addEvent handler =>
      { loop with
        _sockets := if handler ∈ loop._sockets then loop._sockets else handler :: loop._sockets }
  -- `~TcpSock` cancels the timer, `~SocketHandler` removes the handler.
  | .destroy handler =>
      { loop with
        _timerMgmt := addTimer loop._timerMgmt (-1) handler
        _sockets := loop._sockets.filter fun other => other ≠ handler
        destroyed := handler :: loop.destroyed }

/-- The callbacks one after the other; `does n` is what the `n`-th one does. -/
def callAll (does : Nat → List (Action Handler)) :
    Nat → List (Handler × SockEvent) → IOLoop Handler → List (Call Handler) × IOLoop Handler
  | _, [], loop => ([], loop)
  | n, (handler, event) :: rest, loop =>
      let (later, final) := callAll does (n + 1) rest ((does n).foldl act loop)
      (⟨handler, event, loop⟩ :: later, final)

/-- One record can make two calls. -/
def callsFor (event : EpollEvent Handler) : List (Handler × SockEvent) :=
  (if event.events &&& (EPOLLIN ||| EPOLLERR ||| EPOLLHUP) ≠ 0 then [(event.ptr, .read)]
    else []) ++
  (if event.events &&& EPOLLOUT ≠ 0 then [(event.ptr, .write)] else [])

def poll (does : Nat → List (Action Handler)) (events : List (EpollEvent Handler))
    (loop : IOLoop Handler) : List (Call Handler) × IOLoop Handler :=
  callAll does 0 (events.flatMap callsFor) { loop with destroyed := [] }

def checkTimeout (does : Nat → List (Action Handler)) (loop : IOLoop Handler) :
    List (Call Handler) × IOLoop Handler :=
  let (v, timers) := checkTimer loop._timerMgmt loop.m_elapsed
  callAll does 0 (v.map fun handler => (handler, .timeout))
    { loop with _timerMgmt := timers, m_elapsed := 0, destroyed := [] }

/-! Connections and their managers. -/

structure MultiConnManager (Handler : Type) where
  self : Handler
  connMap : List (UInt32 × Handler)
  disabled : List Handler
  lazyDelIds : List UInt32

def getConnById (manager : MultiConnManager Handler) (id : UInt32) : Option Handler :=
  manager.connMap.lookup id

/-- Deletes the connection if its id was in the map. -/
def eraseConnection (manager : MultiConnManager Handler) (id : UInt32) :
    MultiConnManager Handler × List (Action Handler) :=
  ({ manager with connMap := manager.connMap.filter fun entry => entry.1 ≠ id },
    match getConnById manager id with
    | some conn => [.destroy conn]
    | none => [])

/-- The loop of `LazyDelConnManager::doEvent`. -/
def eraseLazily (manager : MultiConnManager Handler) :
    List UInt32 → MultiConnManager Handler × List (Action Handler)
  | [] => (manager, [])
  | id :: rest =>
      match getConnById manager id with
      | some conn =>
          if conn ∈ manager.disabled then
            let (erased, done) := eraseConnection manager id
            let (final, later) := eraseLazily erased rest
            (final, done ++ later)
          else eraseLazily manager rest
      | none => eraseLazily manager rest

def CONN_DEL_DELAY_TIME : Int32 := 10

def lazyDelDoEvent (manager : MultiConnManager Handler) :
    MultiConnManager Handler × List (Action Handler) :=
  let (erased, done) := eraseLazily manager manager.lazyDelIds
  ({ erased with lazyDelIds := [] }, done ++ [.addTimer CONN_DEL_DELAY_TIME manager.self])

/-! The loop at each call of a batch. -/

def earlier (does : Nat → List (Action Handler)) (n count : Nat) : List (Action Handler) :=
  (List.range count).flatMap fun i => does (n + i)

omit [DecidableEq Handler] in
theorem earlier_succ (does : Nat → List (Action Handler)) (n count : Nat) :
    earlier does n (count + 1) = does n ++ earlier does (n + 1) count := by
  simp only [earlier, List.range_succ_eq_map, List.flatMap_cons, List.flatMap_map, Nat.add_zero]
  congr 2
  funext i
  congr 1
  omega

omit [DecidableEq Handler] in
theorem mem_earlier (does : Nat → List (Action Handler)) (count : Nat)
    (action : Action Handler) :
    action ∈ earlier does 0 count ↔ ∃ i, i < count ∧ action ∈ does i := by
  simp [earlier, List.mem_flatMap, List.mem_range]

/-- The handlers called are those of the list; each call is made in the loop
that the earlier callbacks left. -/
theorem callAll_getElem? (does : Nat → List (Action Handler)) (n : Nat)
    (calls : List (Handler × SockEvent)) (loop : IOLoop Handler) (position : Nat) :
    (callAll does n calls loop).1[position]? = calls[position]?.map fun call =>
      ⟨call.1, call.2, (earlier does n position).foldl act loop⟩ := by
  induction calls generalizing n loop position with
  | nil => rfl
  | cons call rest ih =>
      cases position with
      | zero => rfl
      | succ position =>
          simp only [callAll, List.getElem?_cons_succ, ih, earlier_succ, List.foldl_append]

/-- A property of the calls of a batch, call by call. -/
theorem forall_calls (holds : Handler → IOLoop Handler → Prop)
    (does : Nat → List (Action Handler)) (calls : List (Handler × SockEvent))
    (loop : IOLoop Handler) :
    (∀ call ∈ (callAll does 0 calls loop).1, holds call.handler call.loop) ↔
      ∀ position handler event, calls[position]? = some (handler, event) →
        holds handler ((earlier does 0 position).foldl act loop) := by
  constructor
  · intro all position handler event found
    have made := callAll_getElem? does 0 calls loop position
    rw [found] at made
    exact all _ (List.mem_of_getElem? made)
  · intro all call member
    obtain ⟨position, made⟩ := List.mem_iff_getElem?.mp member
    rw [callAll_getElem?] at made
    obtain ⟨⟨handler, event⟩, found, rfl⟩ := Option.map_eq_some_iff.mp made
    exact all position handler event found

/-- What the last registration or destruction of the handler leaves: whether it
is registered; none when the actions do not concern it. -/
def standing (handler : Handler) : List (Action Handler) → Option Bool
  | [] => none
  | .addTimer _ _ :: rest => standing handler rest
  | .addEvent other :: rest =>
      (standing handler rest).or (if other = handler then some true else none)
  | .destroy other :: rest =>
      (standing handler rest).or (if other = handler then some false else none)

theorem actions_sockets (actions : List (Action Handler)) (loop : IOLoop Handler)
    (handler : Handler) :
    handler ∈ (actions.foldl act loop)._sockets ↔
      (standing handler actions).getD (decide (handler ∈ loop._sockets)) = true := by
  induction actions generalizing loop with
  | nil => simp [standing]
  | cons action rest ih =>
      rw [List.foldl_cons, ih]
      cases settled : standing handler rest with
      | some value => cases action <;> simp [standing, settled]
      | none =>
          cases action with
          | addTimer timeout other =>
              simp only [standing, settled, Option.getD_none]
              rfl
          | addEvent other =>
              by_cases same : other = handler
              · subst other
                by_cases member : handler ∈ loop._sockets <;>
                  simp [standing, settled, act, member]
              · by_cases member : other ∈ loop._sockets <;>
                  simp [standing, settled, act, member, same, Ne.symm same]
          | destroy other =>
              by_cases same : other = handler
              · simp [standing, settled, act, same]
              · simp [standing, settled, act, same, Ne.symm same]

theorem actions_destroyed (actions : List (Action Handler)) (loop : IOLoop Handler)
    (handler : Handler) :
    handler ∈ (actions.foldl act loop).destroyed ↔
      handler ∈ loop.destroyed ∨ .destroy handler ∈ actions := by
  induction actions generalizing loop with
  | nil => simp
  | cons action rest ih =>
      rw [List.foldl_cons, ih]
      cases action with
      | addTimer timeout other => simp [act]
      | addEvent other => simp [act]
      | destroy other => simp [act, or_assoc, or_left_comm]

/-- For descriptors that are registered when `epoll_wait` reports them, `poll`
calls registered handlers only, exactly when no call goes to a handler whose
last change by an earlier callback of the batch was its destruction. -/
theorem poll_registered_iff (does : Nat → List (Action Handler))
    (events : List (EpollEvent Handler)) (loop : IOLoop Handler)
    (reported : ∀ event ∈ events, event.ptr ∈ loop._sockets) :
    (∀ call ∈ (poll does events loop).1, call.handler ∈ call.loop._sockets) ↔
      ∀ position handler event,
        (events.flatMap callsFor)[position]? = some (handler, event) →
          standing handler (earlier does 0 position) ≠ some false := by
  rw [poll, forall_calls fun handler loop => handler ∈ loop._sockets]
  apply forall_congr'
  intro position
  apply forall₂_congr
  intro handler event
  apply imp_congr_right
  intro found
  have registered : handler ∈ loop._sockets := by
    obtain ⟨record, member, called⟩ := List.mem_flatMap.mp (List.mem_of_getElem? found)
    have same : handler = record.ptr := by
      simp only [callsFor, List.mem_append, List.mem_ite_nil_right, List.mem_singleton,
        Prod.mk.injEq] at called
      rcases called with ⟨-, same, -⟩ | ⟨-, same, -⟩
      · exact same
      · exact same
    rw [same]
    exact reported record member
  rw [actions_sockets]
  cases standing handler (earlier does 0 position) with
  | none => simp [registered]
  | some value => cases value <;> simp

/-- A manager, named 0, of one connection, named 1. -/
def oneConn (disabled : List Nat) (lazyDelIds : List UInt32) : MultiConnManager Nat :=
  ⟨0, [(1, 1)], disabled, lazyDelIds⟩

/-- Two connections become readable; the callback of the first closes it. -/
theorem poll_registered_iff_two :
    (∀ event ∈ [(⟨EPOLLIN, 1⟩ : EpollEvent Nat), ⟨EPOLLIN ||| EPOLLOUT, 2⟩],
      event.ptr ∈ [1, 2]) ∧
    ∀ call ∈ (poll (fun n => if n = 0 then (eraseConnection (oneConn [] []) 1).2 else [])
      [⟨EPOLLIN, 1⟩, ⟨EPOLLIN ||| EPOLLOUT, 2⟩] ⟨[1, 2], TimerList.empty, 0, []⟩).1,
      call.handler ∈ call.loop._sockets := by
  refine ⟨by decide, ?_⟩
  apply (poll_registered_iff _ _ _ (by decide)).mpr
  intro position handler event found
  match position with
  | 0 => simp [earlier, standing]
  | 1 =>
      have same : (2, SockEvent.read) = (handler, event) := Option.some.inj found
      cases same
      decide
  | 2 =>
      have same : (2, SockEvent.write) = (handler, event) := Option.some.inj found
      cases same
      decide
  | later + 3 => cases found

/-- A connection is readable and writable at once and its peer has closed it:
`recv` returns zero, the read callback erases the connection, and the write
callback is called on it nevertheless. -/
theorem closed_connection_written :
    (∀ event ∈ [(⟨EPOLLIN ||| EPOLLOUT, 1⟩ : EpollEvent Nat)], event.ptr ∈ [1]) ∧
      ¬ ∀ call ∈ (poll (fun n => if n = 0 then (eraseConnection (oneConn [] []) 1).2 else [])
        [⟨EPOLLIN ||| EPOLLOUT, 1⟩] ⟨[1], TimerList.empty, 0, []⟩).1,
        call.handler ∈ call.loop._sockets := by
  decide

/-- `checkTimeout` calls no handler that an earlier callback of the batch has
destroyed, exactly when no callback destroys a handler whose timer is due
behind its own. -/
theorem checkTimeout_alive_iff (does : Nat → List (Action Handler)) (loop : IOLoop Handler) :
    (∀ call ∈ (checkTimeout does loop).1, call.handler ∉ call.loop.destroyed) ↔
      ∀ first later handler, first < later →
        (checkTimer loop._timerMgmt loop.m_elapsed).1[later]? = some handler →
          .destroy handler ∉ does first := by
  simp only [checkTimeout]
  rw [forall_calls fun handler loop => handler ∉ loop.destroyed]
  constructor
  · intro alive first later handler before found destroys
    apply alive later handler .timeout
    · rw [List.getElem?_map, found]
      rfl
    · rw [actions_destroyed, mem_earlier]
      exact .inr ⟨first, before, destroys⟩
  · intro spared later handler event found gone
    rw [List.getElem?_map] at found
    obtain ⟨due, position, same⟩ := Option.map_eq_some_iff.mp found
    cases same
    rw [actions_destroyed, mem_earlier] at gone
    rcases gone with before | ⟨first, before, destroys⟩
    · cases before
    · exact spared first later handler before position destroys

/-- The manager deletes connections every ten milliseconds; the connection has
been quiet for ten minutes when both timers are due. -/
def quietTimers : TimerList Nat :=
  runAll timerMgmt Program.perform TimerList.empty
    [.addTimer CONN_DEL_DELAY_TIME 0, .addTimer 600000 1, .checkTimer 600000,
      .addTimer CONN_DEL_DELAY_TIME 0]

/-- A write to the connection failed, so it is disabled and listed for the lazy
deletion: the manager's callback destroys it, and the loop calls it next. -/
theorem deleted_connection_called :
    ¬ ∀ call ∈ (checkTimeout
        (fun n => if n = 0 then (lazyDelDoEvent (oneConn [1] [1])).2 else [])
        ⟨[1], quietTimers, 500, []⟩).1,
      call.handler ∉ call.loop.destroyed := by
  decide +kernel

end FPayNode.EventLoop
