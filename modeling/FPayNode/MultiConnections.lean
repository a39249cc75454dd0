import FPayNode.MsgFrames
import FPayNode.RoutedConnections

/-!
`core/conn/MultiConnManager.cpp` with one message for many connections. Ids are
counted from one and are never given again, so that they soon are larger than the
number of connections; `dispatchByIds` compares them with that number, and looks
them up with an operator that makes an entry without a connection when there is
none. An entry is a pointer, none for `NULL`.
-/

namespace FPayNode.MultiConnections

open CommandProgram DecimalText ByteStream OutputStream SenderFrames SenderObjects
open RoutedConnections (Conn lookup_inserted lookup_erased)

/-- `endPack` of the class that the sender has. -/
def endPack (sender : Sender) : Option Sender :=
  match sender.sessionId with
  | none => MsgFrames.endPack sender
  | some sessionId =>
      (JsonSender.endPack ⟨sender.pb, sender.hpk, sender.pk, sender.len, sender.uri,
        sessionId⟩).map fun packed => { sender with pb := packed.pb }

/-- A `std::set<cid_t>`, in the order it is walked through. -/
structure IdSet where
  ids : List UInt32
  ascending : ids.Pairwise fun id other => id.toNat < other.toNat

abbrev ConnMap := AList fun _ : UInt32 => Option Nat

/-- `heap` has the objects that are not deleted, by their pointers, of which
none is given twice; `created` counts them. -/
structure MultiConnManager where
  cid : UInt32
  connMap : ConnMap
  lazyDelIds : List UInt32
  heap : AList fun _ : Nat => Conn
  created : Nat

/-- `calls` has what was given to `sendBin` of which object. -/
structure Dispatch where
  returned : Bool
  manager : MultiConnManager
  calls : List (Nat × Bytes)

namespace MultiConnManager

def fresh : MultiConnManager := ⟨0, ∅, [], ∅, 0⟩

def size (connMap : ConnMap) : Nat := connMap.keys.length

def onConnCreate (conn : Conn) (manager : MultiConnManager) : MultiConnManager :=
  let cid := manager.cid + 1
  { manager with
    cid := cid
    connMap := manager.connMap.insert cid (some manager.created)
    heap := manager.heap.insert manager.created { conn with id := cid }
    created := manager.created + 1 }

/-- The object is deleted if its id was in the map. -/
def eraseConnection (ptr : Nat) (manager : MultiConnManager) : MultiConnManager :=
  match manager.heap.lookup ptr with
  | none => manager
  | some conn =>
      if (manager.connMap.lookup conn.id).isSome then
        { manager with
          connMap := manager.connMap.erase conn.id
          heap := manager.heap.erase ptr }
      else manager

def eraseConnectionById (id : UInt32) (manager : MultiConnManager) : MultiConnManager :=
  match manager.connMap.lookup id with
  | some (some ptr) => manager.eraseConnection ptr
  | _ => manager

/-- `connMap[id]`. -/
def index (id : UInt32) (manager : MultiConnManager) : Option Nat × MultiConnManager :=
  match manager.connMap.lookup id with
  | some conn => (conn, manager)
  | none => (none, { manager with connMap := manager.connMap.insert id none })

/-- The `try` block: a connection that throws is disabled and listed. -/
def sendBin (kernel : Kernel) (id : UInt32) (ptr : Nat) (conn : Conn) (frame : Bytes)
    (manager : MultiConnManager) : MultiConnManager :=
  match conn.io.sendBin kernel frame with
  | (.ok (), io) => { manager with heap := manager.heap.insert ptr { conn with io := io } }
  | (.error _, io) =>
      { manager with
        heap := manager.heap.insert ptr (Conn.setEnable false { conn with io := io })
        lazyDelIds := manager.lazyDelIds.insert id }

/-- The loop of `dispatchByIds`; `kernel` is what it does for which id. -/
def dispatchEach (exp : UInt32) (frame : Bytes) (kernel : UInt32 → Kernel) :
    List UInt32 → MultiConnManager → Dispatch
  | [], manager => ⟨true, manager, []⟩
  | id :: rest, manager =>
      if exp ≠ -1 ∧ exp = id then dispatchEach exp frame kernel rest manager
      else
        let (conn, manager) :=
          if id.toNat < size manager.connMap then manager.index id else (none, manager)
        match conn with
        | none => ⟨false, manager, []⟩
        | some ptr =>
            match manager.heap.lookup ptr with
            | none => ⟨false, manager, []⟩ -- the object was deleted: undefined behaviour
            | some conn =>
                let others := dispatchEach exp frame kernel rest
                  (manager.sendBin (kernel id) id ptr conn frame)
                { others with calls := (ptr, frame) :: others.calls }

/-- The message is packed once; an exception of that is not caught. -/
def dispatchByIds (kernel : UInt32 → Kernel) (ids : IdSet) (sender : Sender) (exp : UInt32)
    (manager : MultiConnManager) : Except Exn Dispatch :=
  match endPack sender with
  | none => .error .otherException
  | some packed =>
      .ok (dispatchEach exp (MsgFrames.sent packed) kernel ids.ids manager)

end MultiConnManager

open MultiConnManager

/-- Every id in the map is that of a live connection. -/
def Live (manager : MultiConnManager) : Prop :=
  ∀ id entry, manager.connMap.lookup id = some entry →
    ∃ ptr conn, entry = some ptr ∧ manager.heap.lookup ptr = some conn ∧ conn.id = id

/-- The frame went once to every connection of `ids` but that of `exp`, to no
other, and the map has the ids it had. -/
structure Dispatched (connMap : ConnMap) (ids : List UInt32) (exp : UInt32) (frame : Bytes)
    (dispatch : Dispatch) : Prop where
  once : ∀ id ∈ ids, ∀ ptr, connMap.lookup id = some (some ptr) → id ≠ exp →
    dispatch.calls.filter (fun call => call.1 = ptr) = [(ptr, frame)]
  others : ∀ call ∈ dispatch.calls, ∃ id ∈ ids, connMap.lookup id = some (some call.1) ∧ id ≠ exp
  keys : ∀ id, id ∈ dispatch.manager.connMap ↔ id ∈ connMap

/-- The ids below the number of connections are in the map, and those in the map
are below it. -/
def Addressed (connMap : ConnMap) (ids : List UInt32) (exp : UInt32) : Prop :=
  ∀ id ∈ ids, ¬ (exp ≠ -1 ∧ exp = id) →
    (id.toNat < size connMap → id ∈ connMap ∧ id ≠ exp) ∧
    (size connMap ≤ id.toNat → id ∈ connMap → id = exp)

/-! One id. -/

theorem live_injective (manager : MultiConnManager) (live : Live manager) (id other : UInt32)
    (ptr : Nat) (found : manager.connMap.lookup id = some (some ptr))
    (found' : manager.connMap.lookup other = some (some ptr)) : id = other := by
  obtain ⟨_, conn, same, object, named⟩ := live id _ found
  obtain ⟨_, conn', same', object', named'⟩ := live other _ found'
  cases same
  cases same'
  rw [object] at object'
  cases object'
  exact named.symm.trans named'

/-- An object that is written back under its pointer with its id. -/
theorem live_stored (manager : MultiConnManager) (live : Live manager) (ptr : Nat)
    (conn after : Conn) (lazyDelIds : List UInt32) (found : manager.heap.lookup ptr = some conn)
    (same : after.id = conn.id) :
    Live { manager with heap := manager.heap.insert ptr after, lazyDelIds := lazyDelIds } := by
  intro id entry present
  obtain ⟨other, object, pointer, stored, named⟩ := live id entry present
  by_cases here : other = ptr
  · rw [here, found] at stored
    cases stored
    exact ⟨ptr, after, here ▸ pointer, by rw [lookup_inserted, if_pos rfl], same.trans named⟩
  · exact ⟨other, object, pointer, by rw [lookup_inserted, if_neg here, stored], named⟩

theorem sendBin_keeps (manager : MultiConnManager) (kernel : Kernel) (id : UInt32) (ptr : Nat)
    (conn : Conn) (frame : Bytes) (live : Live manager)
    (found : manager.heap.lookup ptr = some conn) :
    (manager.sendBin kernel id ptr conn frame).connMap = manager.connMap ∧
      Live (manager.sendBin kernel id ptr conn frame) := by
  rw [MultiConnManager.sendBin]
  split
  · exact ⟨rfl, live_stored manager live ptr conn _ manager.lazyDelIds found rfl⟩
  · exact ⟨rfl, live_stored manager live ptr conn _ _ found rfl⟩

section Sets
variable (connMap : ConnMap) (exp : UInt32) (frame : Bytes)

theorem addressed_cons (id : UInt32) (rest : List UInt32) :
    Addressed connMap (id :: rest) exp ↔
      (¬ (exp ≠ -1 ∧ exp = id) →
        (id.toNat < size connMap → id ∈ connMap ∧ id ≠ exp) ∧
        (size connMap ≤ id.toNat → id ∈ connMap → id = exp)) ∧
      Addressed connMap rest exp :=
  List.forall_mem_cons

/-- None of the ids is below the number of connections. -/
theorem addressed_large (ids : List UInt32) (large : ∀ id ∈ ids, size connMap ≤ id.toNat) :
    Addressed connMap ids exp ↔ ∀ id ∈ ids, id ∈ connMap → id = exp := by
  constructor
  · intro addressed id listed present
    by_cases skipped : exp ≠ -1 ∧ exp = id
    · exact skipped.2.symm
    · exact (addressed id listed skipped).2 (large id listed) present
  · intro unlike id listed _
    exact ⟨fun small => absurd small (Nat.not_lt.mpr (large id listed)),
      fun _ => unlike id listed⟩

/-- The id that is left out needs no call. -/
theorem dispatched_skipped (id : UInt32) (rest : List UInt32) (dispatch : Dispatch)
    (skipped : id = exp) :
    Dispatched connMap (id :: rest) exp frame dispatch ↔
      Dispatched connMap rest exp frame dispatch := by
  constructor
  · intro dispatched
    refine ⟨fun other member => dispatched.once other (List.mem_cons_of_mem id member), ?_,
      dispatched.keys⟩
    intro call member
    obtain ⟨other, listed, found, different⟩ := dispatched.others call member
    rcases List.mem_cons.mp listed with same | later
    · exact absurd (same.trans skipped) different
    · exact ⟨other, later, found, different⟩
  · intro dispatched
    refine ⟨?_, ?_, dispatched.keys⟩
    · intro other listed ptr found different
      rcases List.mem_cons.mp listed with same | later
      · exact absurd (same.trans skipped) different
      · exact dispatched.once other later ptr found different
    · intro call member
      obtain ⟨other, listed, found, different⟩ := dispatched.others call member
      exact ⟨other, List.mem_cons_of_mem id listed, found, different⟩

/-- The loop has stopped without a call. -/
theorem dispatched_stopped (manager : MultiConnManager) (ids : List UInt32) (returned : Bool)
    (live : Live manager) :
    Dispatched manager.connMap ids exp frame ⟨returned, manager, []⟩ ↔
      ∀ id ∈ ids, id ∈ manager.connMap → id = exp := by
  constructor
  · intro dispatched id listed present
    by_contra different
    obtain ⟨entry, found⟩ := Option.isSome_iff_exists.mp (AList.lookup_isSome.mpr present)
    obtain ⟨ptr, conn, pointer, -, -⟩ := live id entry found
    rw [pointer] at found
    have called := dispatched.once id listed ptr found different
    cases called
  · intro excluded
    refine ⟨?_, ?_, fun id => Iff.rfl⟩
    · intro id listed ptr found different
      exact absurd (excluded id listed (AList.lookup_isSome.mp (by rw [found]; rfl))) different
    · intro call member
      cases member

/-- The first id is served, and the rest is as it was. -/
theorem dispatched_served (id : UInt32) (rest : List UInt32) (ptr : Nat) (dispatch : Dispatch)
    (fresh : id ∉ rest) (different : id ≠ exp) (found : connMap.lookup id = some (some ptr))
    (injective : ∀ other, connMap.lookup other = some (some ptr) → other = id) :
    Dispatched connMap (id :: rest) exp frame
        { dispatch with calls := (ptr, frame) :: dispatch.calls } ↔
      Dispatched connMap rest exp frame dispatch := by
  have apart (other : UInt32) (listed : other ∈ rest) (ptr' : Nat)
      (found' : connMap.lookup other = some (some ptr')) : ptr ≠ ptr' := by
    rintro rfl
    exact fresh (injective other found' ▸ listed)
  constructor
  · intro dispatched
    refine ⟨?_, ?_, dispatched.keys⟩
    · intro other listed ptr' found' unlike
      have once := dispatched.once other (List.mem_cons_of_mem id listed) ptr' found' unlike
      rw [List.filter_cons_of_neg (by simp [apart other listed ptr' found'])] at once
      exact once
    · intro call member
      obtain ⟨other, listed, found', unlike⟩ :=
        dispatched.others call (List.mem_cons_of_mem _ member)
      rcases List.mem_cons.mp listed with same | later
      · -- The first id has had its only call.
        have once := dispatched.once id List.mem_cons_self ptr found different
        rw [List.filter_cons_of_pos (by simp)] at once
        rw [same, found] at found'
        have here : call.1 = ptr := (Option.some.inj (Option.some.inj found')).symm
        have again : call ∈ dispatch.calls.filter fun call => call.1 = ptr :=
          List.mem_filter.mpr ⟨member, decide_eq_true here⟩
        rw [(List.cons.inj once).2] at again
        cases again
      · exact ⟨other, later, found', unlike⟩
  · intro dispatched
    refine ⟨?_, ?_, dispatched.keys⟩
    · intro other listed ptr' found' unlike
      rcases List.mem_cons.mp listed with same | later
      · rw [same, found] at found'
        have here : ptr = ptr' := Option.some.inj (Option.some.inj found')
        have nothing : dispatch.calls.filter (fun call => call.1 = ptr') = [] := by
          rw [List.filter_eq_nil_iff]
          intro call member again
          obtain ⟨third, listed', found'', -⟩ := dispatched.others call member
          rw [of_decide_eq_true again] at found''
          exact apart third listed' ptr' found'' here
        rw [List.filter_cons_of_pos (by simp [here]), nothing, here]
      · rw [List.filter_cons_of_neg (by simp [apart other later ptr' found'])]
        exact dispatched.once other later ptr' found' unlike
    · intro call member
      rcases List.mem_cons.mp member with first | later
      · exact ⟨id, List.mem_cons_self, by rw [first]; exact found, different⟩
      · obtain ⟨other, listed, found', unlike⟩ := dispatched.others call later
        exact ⟨other, List.mem_cons_of_mem id listed, found', unlike⟩

end Sets

/-! The loop. -/

theorem dispatchEach_iff (exp : UInt32) (frame : Bytes) (kernel : UInt32 → Kernel)
    (ids : List UInt32) (manager : MultiConnManager) (live : Live manager)
    (ascending : ids.Pairwise fun id other => id.toNat < other.toNat) :
    Dispatched manager.connMap ids exp frame (dispatchEach exp frame kernel ids manager) ↔
      Addressed manager.connMap ids exp := by
  induction ids generalizing manager with
  | nil =>
      rw [dispatchEach, dispatched_stopped exp frame manager [] true live]
      exact iff_of_true (fun id member => absurd member List.not_mem_nil)
        fun id member => absurd member List.not_mem_nil
  | cons id rest ih =>
      obtain ⟨first, later⟩ := List.pairwise_cons.mp ascending
      rw [dispatchEach, addressed_cons]
      by_cases skipped : exp ≠ -1 ∧ exp = id
      · rw [if_pos skipped, dispatched_skipped _ _ _ _ _ _ skipped.2.symm, ih manager live later]
        exact (and_iff_right fun kept => absurd skipped kept).symm
      · rw [if_neg skipped]
        by_cases small : id.toNat < size manager.connMap
        · rw [if_pos small]
          cases found : manager.connMap.lookup id with
          | none =>
              -- The operator makes an entry, so that the map has one more id.
              have absent : id ∉ manager.connMap := AList.lookup_eq_none.mp found
              simp only [index, found]
              refine iff_of_false ?_ ?_
              · intro dispatched
                exact absent ((dispatched.keys id).mp (AList.mem_insert _ |>.mpr (.inl rfl)))
              · rintro ⟨addressed, -⟩
                exact absent ((addressed skipped).1 small).1
          | some entry =>
              obtain ⟨ptr, conn, pointer, object, -⟩ := live id entry found
              rw [pointer] at found
              have present : id ∈ manager.connMap :=
                AList.lookup_isSome.mp (by rw [found]; rfl)
              obtain ⟨same, kept⟩ := sendBin_keeps manager (kernel id) id ptr conn frame live object
              have tail := ih (manager.sendBin (kernel id) id ptr conn frame) kept later
              rw [same] at tail
              simp only [index, found, object]
              by_cases excluded : id = exp
              · refine iff_of_false ?_ ?_
                · intro dispatched
                  obtain ⟨other, -, found', different⟩ :=
                    dispatched.others (ptr, frame) List.mem_cons_self
                  exact different
                    ((live_injective manager live other id ptr found' found).trans excluded)
                · rintro ⟨addressed, -⟩
                  exact ((addressed skipped).1 small).2 excluded
              · rw [dispatched_served _ _ _ id rest ptr _
                  (fun member => Nat.lt_irrefl _ (first id member)) excluded found
                  fun other found' => live_injective manager live other id ptr found' found, tail]
                exact (and_iff_right fun _ => ⟨fun _ => ⟨present, excluded⟩,
                  fun large => absurd small (Nat.not_lt.mpr large)⟩).symm
        · rw [if_neg small]
          have large : size manager.connMap ≤ id.toNat := Nat.not_lt.mp small
          -- The loop ends here, and no later id is below the size either.
          have all : ∀ other ∈ id :: rest, size manager.connMap ≤ other.toNat := by
            intro other member
            rcases List.mem_cons.mp member with same | listed
            · exact same ▸ large
            · exact large.trans (Nat.le_of_lt (first other listed))
          rw [← addressed_cons, addressed_large _ _ _ all]
          exact dispatched_stopped exp frame manager (id :: rest) false live

theorem dispatchByIds_sends_iff (manager : MultiConnManager) (live : Live manager) (ids : IdSet)
    (exp : UInt32) (sender packed : Sender) (done : endPack sender = some packed)
    (kernel : UInt32 → Kernel) :
    (∃ dispatch, dispatchByIds kernel ids sender exp manager = .ok dispatch ∧
      Dispatched manager.connMap ids.ids exp (MsgFrames.sent packed) dispatch) ↔
      Addressed manager.connMap ids.ids exp := by
  simp only [dispatchByIds, done, Except.ok.injEq, exists_eq_left']
  exact dispatchEach_iff exp (MsgFrames.sent packed) kernel ids.ids manager live ids.ascending

/-! Runs. -/

inductive ManagerCall where
  | onConnCreate (conn : Conn)
  | eraseConnection (ptr : Nat)
  | eraseConnectionById (id : UInt32)
  | dispatchByIds (kernel : UInt32 → Kernel) (ids : IdSet) (sender : Sender) (exp : UInt32)

def multiConnManager : Machine ManagerCall Unit MultiConnManager
  | .onConnCreate conn, manager => ((), manager.onConnCreate conn)
  | .eraseConnection ptr, manager => ((), manager.eraseConnection ptr)
  | .eraseConnectionById id, manager => ((), manager.eraseConnectionById id)
  | .dispatchByIds kernel ids sender exp, manager =>
      ((), match manager.dispatchByIds kernel ids sender exp with
        | .error _ => manager
        | .ok dispatch => dispatch.manager)

/-- The pointers that were given are below the counter. -/
structure Managed (manager : MultiConnManager) : Prop where
  live : Live manager
  older : ∀ ptr conn, manager.heap.lookup ptr = some conn → ptr < manager.created

/-- A message that is packed goes to the connections it should go to. -/
def Sends (manager : MultiConnManager) : ManagerCall → Prop
  | .dispatchByIds kernel ids sender exp =>
      ∀ packed, endPack sender = some packed →
        ∃ dispatch, manager.dispatchByIds kernel ids sender exp = .ok dispatch ∧
          Dispatched manager.connMap ids.ids exp (MsgFrames.sent packed) dispatch
  | _ => True

def Addresses (manager : MultiConnManager) : ManagerCall → Prop
  | .dispatchByIds _ ids sender exp =>
      (endPack sender).isSome → Addressed manager.connMap ids.ids exp
  | _ => True

theorem fresh_managed : Managed fresh := by
  constructor
  · intro id entry found
    cases found
  · intro ptr conn found
    cases found

theorem sendBin_managed (manager : MultiConnManager) (kernel : Kernel) (id : UInt32) (ptr : Nat)
    (conn : Conn) (frame : Bytes) (managed : Managed manager)
    (found : manager.heap.lookup ptr = some conn) :
    Managed (manager.sendBin kernel id ptr conn frame) := by
  refine ⟨(sendBin_keeps manager kernel id ptr conn frame managed.live found).2, ?_⟩
  have kept (after : Conn) (other : Nat) (object : Conn)
      (stored : (manager.heap.insert ptr after).lookup other = some object) :
      other < manager.created := by
    rw [lookup_inserted] at stored
    split at stored
    · next same => exact same ▸ managed.older ptr conn found
    · exact managed.older other object stored
  rw [MultiConnManager.sendBin]
  split
  · exact kept _
  · exact kept _

theorem dispatchEach_managed (exp : UInt32) (frame : Bytes) (kernel : UInt32 → Kernel)
    (ids : List UInt32) (manager : MultiConnManager) (managed : Managed manager)
    (addressed : Addressed manager.connMap ids exp) :
    Managed (dispatchEach exp frame kernel ids manager).manager := by
  induction ids generalizing manager with
  | nil => exact managed
  | cons id rest ih =>
      obtain ⟨first, later⟩ := (addressed_cons manager.connMap exp id rest).mp addressed
      rw [dispatchEach]
      by_cases skipped : exp ≠ -1 ∧ exp = id
      · rw [if_pos skipped]
        exact ih manager managed later
      · rw [if_neg skipped]
        by_cases small : id.toNat < size manager.connMap
        · rw [if_pos small]
          obtain ⟨entry, found⟩ :=
            Option.isSome_iff_exists.mp (AList.lookup_isSome.mpr ((first skipped).1 small).1)
          obtain ⟨ptr, conn, pointer, object, -⟩ := managed.live id entry found
          rw [pointer] at found
          simp only [index, found, object]
          apply ih _ (sendBin_managed manager (kernel id) id ptr conn frame managed object)
          rw [(sendBin_keeps manager (kernel id) id ptr conn frame managed.live object).1]
          exact later
        · rw [if_neg small]
          exact managed

theorem onConnCreate_managed (manager : MultiConnManager) (conn : Conn)
    (managed : Managed manager) : Managed (manager.onConnCreate conn) := by
  constructor
  · intro id entry found
    simp only [onConnCreate, lookup_inserted] at found ⊢
    split at found
    · next same =>
        cases found
        exact ⟨manager.created, { conn with id := manager.cid + 1 }, rfl, by rw [if_pos rfl],
          same.symm⟩
    · obtain ⟨ptr, object, pointer, stored, named⟩ := managed.live id entry found
      have old := managed.older ptr object stored
      exact ⟨ptr, object, pointer, by rw [if_neg (Nat.ne_of_lt old), stored], named⟩
  · intro ptr object stored
    simp only [onConnCreate, lookup_inserted] at stored ⊢
    split at stored
    · next same => exact same ▸ Nat.lt_succ_self _
    · exact Nat.lt_succ_of_lt (managed.older ptr object stored)

theorem eraseConnection_managed (manager : MultiConnManager) (ptr : Nat)
    (managed : Managed manager) : Managed (manager.eraseConnection ptr) := by
  rw [eraseConnection]
  split
  · exact managed
  · next conn object =>
      split
      · constructor
        · intro id entry found
          simp only [lookup_erased] at found ⊢
          split at found
          · cases found
          · next unlike =>
              obtain ⟨other, object', pointer, stored, named⟩ := managed.live id entry found
              have apart : other ≠ ptr := by
                rintro rfl
                rw [object] at stored
                cases stored
                exact unlike named.symm
              exact ⟨other, object', pointer, by rw [if_neg apart, stored], named⟩
        · intro other object' stored
          simp only [lookup_erased] at stored
          split at stored
          · cases stored
          · exact managed.older other object' stored
      · exact managed

theorem call_managed (manager : MultiConnManager) (call : ManagerCall) (managed : Managed manager)
    (addresses : Addresses manager call) : Managed (multiConnManager call manager).2 := by
  cases call with
  | onConnCreate conn => exact onConnCreate_managed manager conn managed
  | eraseConnection ptr => exact eraseConnection_managed manager ptr managed
  | eraseConnectionById id =>
      simp only [multiConnManager, eraseConnectionById]
      split
      · exact eraseConnection_managed manager _ managed
      · exact managed
  | dispatchByIds kernel ids sender exp =>
      simp only [multiConnManager, MultiConnManager.dispatchByIds]
      simp only [Addresses] at addresses
      cases packed : endPack sender with
      | none => exact managed
      | some packet =>
          exact dispatchEach_managed exp _ kernel ids.ids manager managed
            (addresses (by rw [packed]; rfl))

theorem sends_iff (manager : MultiConnManager) (call : ManagerCall) (managed : Managed manager) :
    Sends manager call ↔ Addresses manager call := by
  cases call with
  | dispatchByIds kernel ids sender exp =>
      simp only [Sends, Addresses, MultiConnManager.dispatchByIds]
      cases packed : endPack sender with
      | none =>
          refine iff_of_true ?_ ?_
          · intro packet done
            cases done
          · intro done
            cases done
      | some packet =>
          have loop := dispatchEach_iff exp (MsgFrames.sent packet) kernel ids.ids manager
            managed.live ids.ascending
          simp only [Option.some.injEq, forall_eq', Except.ok.injEq, exists_eq_left',
            Option.isSome_some, true_imp_iff]
          exact loop
  | _ => exact Iff.rfl

/-- From no connections at all, whatever is created and erased in between. -/
theorem runs_send_iff (calls : List ManagerCall) :
    Throughout multiConnManager Program.perform Sends fresh calls ↔
      Throughout multiConnManager Program.perform Addresses fresh calls := by
  apply throughout_congr multiConnManager Program.perform Managed fun _ => True
  · exact fun manager call managed _ => sends_iff manager call managed
  · exact fun manager call managed sends =>
      call_managed manager call managed ((sends_iff manager call managed).mp sends)
  · exact fresh_managed
  · exact fun _ _ => trivial

/-- Connections 1 and 2. -/
def twoConns : MultiConnManager :=
  (fresh.onConnCreate ⟨0, 1, 80, .make .ACCEPT true⟩).onConnCreate ⟨0, 2, 80, .make .ACCEPT true⟩

theorem twoConns_live : Live twoConns :=
  (onConnCreate_managed _ _ (onConnCreate_managed _ _ fresh_managed)).live

/-- A message to the first. -/
theorem dispatchByIds_sends_iff_first :
    ∃ sender packed, Sender.blank ⟨0, 0, 0, 0⟩ (some 7) = some sender ∧
      endPack sender = some packed ∧
      ∃ dispatch,
        dispatchByIds (fun _ => .takes 9) ⟨[1], List.pairwise_singleton _ _⟩ sender (-1) twoConns =
          .ok dispatch ∧
        Dispatched twoConns.connMap [1] (-1) (MsgFrames.sent packed) dispatch := by
  refine ⟨_, _, rfl, rfl, ?_⟩
  apply (dispatchByIds_sends_iff twoConns twoConns_live ⟨[1], List.pairwise_singleton _ _⟩ (-1) _ _
    rfl fun _ => .takes 9).mpr
  intro id listed _
  rw [List.mem_singleton.mp listed]
  exact ⟨fun _ => ⟨by decide +kernel, by decide⟩, fun large => absurd large (by decide +kernel)⟩

/-- A message to the second goes to no one, and one to an id that is not there
makes an entry. -/
theorem second_connection_not_reached :
    ∃ sender packed, Sender.blank ⟨0, 0, 0, 0⟩ (some 7) = some sender ∧
      endPack sender = some packed ∧
      (dispatchByIds (fun _ => .takes 9) ⟨[2], List.pairwise_singleton _ _⟩ sender (-1) twoConns =
        .ok ⟨false, twoConns, []⟩) ∧
      ¬ Dispatched twoConns.connMap [2] (-1) (MsgFrames.sent packed) ⟨false, twoConns, []⟩ ∧
      ∃ dispatch,
        dispatchByIds (fun _ => .takes 9) ⟨[0], List.pairwise_singleton _ _⟩ sender (-1)
          twoConns = .ok dispatch ∧
        dispatch.manager.connMap.lookup 0 = some none ∧
        ¬ Dispatched twoConns.connMap [0] (-1) (MsgFrames.sent packed) dispatch := by
  refine ⟨_, _, rfl, rfl, rfl, ?_, _, rfl, rfl, ?_⟩
  · intro dispatched
    have once := dispatched.once 2 List.mem_cons_self 1 (by decide +kernel) (by decide)
    cases once
  · intro dispatched
    have absent : (0 : UInt32) ∉ twoConns.connMap := by decide +kernel
    exact absent ((dispatched.keys 0).mp (by decide +kernel))

end FPayNode.MultiConnections
