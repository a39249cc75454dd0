import FPayNode.BuilderLock
import FPayNode.DottedAddress
import FPayNode.OutputStream
import FPayNode.SenderFrames
import Mathlib.Data.List.AList

/-!
`core/writer/DirectWriter.cpp` with the connection managers it inherits from:
one connection for each server that something was sent to. There are three
tables, `_sid2cid`, `connMap` and `lazyDelIds`, and the connection objects that
`connMap` points to. Connecting and sending are the kernel's.
-/

namespace FPayNode.RoutedConnections

open CommandProgram DecimalText ByteStream DottedAddress SenderFrames OutputStream
open EventLoop (SockEvent)
open BuilderLock (stoi portText)

/-! Server ids. -/

def genSId (ip : UInt32) (port : UInt16) : UInt64 := (ip.toUInt64 <<< 32) ||| port.toUInt64

def getAddressFromSId (sid : UInt64) : UInt32 × UInt16 := ((sid >>> 32).toUInt32, sid.toUInt16)

/-! Connections. -/

/-- A connection object, with the address it was opened to. -/
structure Conn where
  id : UInt32
  peerIp : UInt32
  peerPort : UInt16
  io : Connection

namespace Conn

def isEnable (conn : Conn) : Bool := conn.io.bEnable

def setEnable (be : Bool) (conn : Conn) : Conn := { conn with io := { conn.io with bEnable := be } }

/-- `AbstractConn::send`. -/
def send (kernel : Kernel) (sender : JsonSender) (conn : Conn) : Except Exn Unit × Conn :=
  match sender.endPack with
  | none => (.error .otherException, conn)
  | some packed =>
      let (result, io) := conn.io.sendBin kernel packed.sent
      (result, { conn with io := io })

end Conn

/-- What starting to connect does: it is refused with a `socketExn`, or it is
begun and may be over at once. -/
inductive Connect where
  | refused
  | begun (immediate : Bool)

/-- `heap` has the objects that are not deleted, by their pointers, of which
none is given twice; `created` counts them. -/
structure DirectWriter where
  _sid2cid : AList fun _ : UInt64 => UInt32
  connMap : AList fun _ : UInt32 => Nat
  cid : UInt32
  lazyDelIds : List UInt32
  heap : AList fun _ : Nat => Conn
  created : Nat

/-- A message to send: the object marshals to `body`, and `stale` is the length
that no constructor of the sender sets. -/
structure Outgoing where
  uri : UInt8
  body : Bytes
  stale : UInt64

namespace DirectWriter

def fresh : DirectWriter := ⟨∅, ∅, 0, [], ∅, 0⟩

def store (ptr : Nat) (conn : Conn) (writer : DirectWriter) : DirectWriter :=
  { writer with heap := writer.heap.insert ptr conn }

/-! `MultiConnManager`. -/

def onConnCreate (ptr : Nat) (conn : Conn) (writer : DirectWriter) : DirectWriter :=
  let cid := writer.cid + 1
  { writer with
    cid := cid
    connMap := writer.connMap.insert cid ptr
    heap := writer.heap.insert ptr { conn with id := cid }
    created := writer.created + 1 }

/-- Deletes the object if its id was in the map. -/
def eraseFromMap (ptr : Nat) (conn : Conn) (writer : DirectWriter) : DirectWriter :=
  if (writer.connMap.lookup conn.id).isSome then
    { writer with
      connMap := writer.connMap.erase conn.id
      heap := writer.heap.erase ptr }
  else writer

/-- The two loops of `DirectWriter::eraseConnection`. -/
def eraseRoutes (id : UInt32) (writer : DirectWriter) : DirectWriter :=
  let sids := writer._sid2cid.entries.filterMap fun entry =>
    if entry.2 = id then some entry.1 else none
  { writer with _sid2cid := sids.foldl (fun map sid => map.erase sid) writer._sid2cid }

/-- `DirectWriter::eraseConnection`; none is a null pointer. -/
def eraseConnection (conn : Option Nat) (writer : DirectWriter) : DirectWriter :=
  match conn with
  | none => writer
  | some ptr =>
      match writer.heap.lookup ptr with
      | none => writer
      | some conn => (writer.eraseRoutes conn.id).eraseFromMap ptr conn

def eraseConnectionById (id : UInt32) (writer : DirectWriter) : DirectWriter :=
  match writer.connMap.lookup id with
  | none => writer
  | some ptr => writer.eraseConnection (some ptr)

/-- The object is disabled and listed for the lazy deletion. -/
def delay (ptr : Nat) (conn : Conn) (id : UInt32) (writer : DirectWriter) : DirectWriter :=
  { writer with
    heap := writer.heap.insert ptr (conn.setEnable false)
    lazyDelIds := writer.lazyDelIds.insert id }

def dispatchById (kernel : Kernel) (cid : UInt32) (sender : JsonSender) (writer : DirectWriter) :
    Bool × DirectWriter :=
  match writer.connMap.lookup cid with
  | none => (false, writer)
  | some ptr =>
      match writer.heap.lookup ptr with
      | none => (false, writer)
      | some conn =>
          match conn.send kernel sender with
          | (.ok (), after) => (true, writer.store ptr after)
          | (.error _, after) => (false, writer.delay ptr after cid)

/-! `LazyDelConnManager`. -/

def DelayDelConn (conn : Option Nat) (writer : DirectWriter) : DirectWriter :=
  match conn with
  | none => writer
  | some ptr =>
      match writer.heap.lookup ptr with
      | none => writer
      | some conn => writer.delay ptr conn conn.id

/-- The loop of `LazyDelConnManager::doEvent`. -/
def eraseDisabled : List UInt32 → DirectWriter → DirectWriter
  | [], writer => writer
  | id :: rest, writer =>
      match writer.connMap.lookup id with
      | none => eraseDisabled rest writer
      | some ptr =>
          if (writer.heap.lookup ptr).any fun conn => !conn.isEnable then
            eraseDisabled rest (writer.eraseConnection (some ptr))
          else eraseDisabled rest writer

def doEvent (writer : DirectWriter) : DirectWriter :=
  { eraseDisabled writer.lazyDelIds writer with lazyDelIds := [] }

/-! `ConnFactory`. -/

/-- Nothing is in the new connection's buffer, so registering it sends nothing. -/
def createConnection (ip : Bytes) (port : UInt32) (connect : Connect) (kernel : Kernel)
    (writer : DirectWriter) : Option Nat × DirectWriter :=
  match connect with
  | .refused => (none, writer)
  | .begun immediate =>
      let io := Connection.make .CONNECT immediate
      let ptr := writer.created
      let conn : Conn := ⟨writer.cid + 1, aton_addr ip, port.toUInt16, io⟩
      match io.register kernel with
      | (.ok (), io) => (some ptr, (writer.onConnCreate ptr conn).store ptr { conn with io := io })
      | (.error _, io) => (none, (writer.onConnCreate ptr conn).store ptr { conn with io := io })

/-! `DirectWriter`. -/

def connectServer (serverId : UInt64) (ip : UInt32) (port : UInt16) (connect : Connect)
    (kernel : Kernel) (writer : DirectWriter) : Option Nat × DirectWriter :=
  if serverId = -1 then (none, writer)
  else
    match writer.createConnection (addr_ntoa ip) port.toUInt32 connect kernel with
    | (none, writer) => (none, writer)
    | (some ptr, writer) =>
        match writer.heap.lookup ptr with
        | none => (none, writer)
        | some conn =>
            (some ptr, { writer with _sid2cid := writer._sid2cid.insert serverId conn.id })

/-- True, false or what it throws. -/
def dispatch (serverId : UInt64) (serverIP : UInt32) (port : UInt16) (outgoing : Outgoing)
    (connect : Connect) (kernel : Kernel) (writer : DirectWriter) :
    Except Exn Bool × DirectWriter :=
  match JsonSender.make outgoing.stale outgoing.uri outgoing.body with
  | none => (.error .otherException, writer)
  | some sender =>
      match writer._sid2cid.lookup serverId with
      | some cid =>
          let (sent, writer) := writer.dispatchById kernel cid sender
          (.ok sent, writer)
      | none =>
          match writer.connectServer serverId serverIP port connect kernel with
          | (none, writer) => (.ok false, writer)
          | (some ptr, writer) =>
              match writer.heap.lookup ptr with
              | none => (.ok false, writer)
              | some conn =>
                  match conn.send kernel sender with
                  | (.ok (), after) => (.ok true, writer.store ptr after)
                  | (.error exn, after) => (.error exn, writer.store ptr after)

/-- What the call of `dispatch` gives; `route` returns nothing. -/
def route (sid : UInt64) (outgoing : Outgoing) (connect : Connect) (kernel : Kernel)
    (writer : DirectWriter) : Except Exn Bool × DirectWriter :=
  let (ip, port) := getAddressFromSId sid
  writer.dispatch sid ip port outgoing connect kernel

end DirectWriter

/-- The server that `sendTo` routes to: the part in front of the colon, or all
of the text when there is none, is the address. None when it returns at once. -/
def serverOf (ipport : Bytes) : Except Exn (Option UInt64) :=
  match portText ipport with
  | none => .ok none
  | some text =>
      match stoi text with
      | none => .error .otherException
      | some port =>
          let ip := ipport.take ((ipport.findIdx? fun byte => byte = 58).getD ipport.length)
          if port ≤ 0 ∨ port > 65535 ∨ ip = [] then .ok none
          else .ok (some (genSId (aton_addr ip) (UInt16.ofNat port.toNat)))

namespace DirectWriter

/-- What the call of `dispatch` gives, none when there is no call. -/
def sendTo (ipport : Bytes) (outgoing : Outgoing) (connect : Connect) (kernel : Kernel)
    (writer : DirectWriter) : Except Exn (Option Bool) × DirectWriter :=
  match serverOf ipport with
  | .error exn => (.error exn, writer)
  | .ok none => (.ok none, writer)
  | .ok (some serverId) =>
      let (result, writer) := writer.route serverId outgoing connect kernel
      (result.map some, writer)

/-- An event of the connection's socket; `onError` of the manager erases it. -/
def connEvent (ptr : Nat) (event : SockEvent) (error : Int32) (kernel : Kernel)
    (writer : DirectWriter) : DirectWriter :=
  match writer.heap.lookup ptr with
  | none => writer
  | some conn =>
      let (_, io) := conn.io.doEvent event error kernel
      let writer := writer.store ptr { conn with io := io }
      if io.failed then writer.eraseConnection (some ptr) else writer

end DirectWriter

inductive WriterCall where
  | sendTo (ipport : Bytes) (outgoing : Outgoing) (connect : Connect) (kernel : Kernel)
  | route (sid : UInt64) (outgoing : Outgoing) (connect : Connect) (kernel : Kernel)
  | dispatchById (cid : UInt32) (outgoing : Outgoing) (kernel : Kernel)
  /-- `onClose`, `onInitiativeClose`, `onError` and `onTimeout` of a connection. -/
  | closed (conn : Option Nat)
  | eraseConnectionById (id : UInt32)
  | DelayDelConn (conn : Option Nat)
  | doEvent
  | connEvent (ptr : Nat) (event : SockEvent) (error : Int32) (kernel : Kernel)

/-- Answers with what `dispatch` or `dispatchById` gives, none when neither is
called. -/
def directWriter : Machine WriterCall (Except Exn (Option Bool)) DirectWriter
  | .sendTo ipport outgoing connect kernel, writer => writer.sendTo ipport outgoing connect kernel
  | .route sid outgoing connect kernel, writer =>
      let (result, writer) := writer.route sid outgoing connect kernel
      (result.map some, writer)
  | .dispatchById cid outgoing kernel, writer =>
      match JsonSender.make outgoing.stale outgoing.uri outgoing.body with
      | none => (.error .otherException, writer)
      | some sender =>
          let (sent, writer) := writer.dispatchById kernel cid sender
          (.ok (some sent), writer)
  | .closed conn, writer => (.ok none, writer.eraseConnection conn)
  | .eraseConnectionById id, writer => (.ok none, writer.eraseConnectionById id)
  | .DelayDelConn conn, writer => (.ok none, writer.DelayDelConn conn)
  | .doEvent, writer => (.ok none, writer.doEvent)
  | .connEvent ptr event error kernel, writer =>
      (.ok none, writer.connEvent ptr event error kernel)

/-! Tables. -/

section Tables
variable {Key Value : Type} [DecidableEq Key] (table : AList fun _ : Key => Value)

theorem lookup_inserted (key other : Key) (value : Value) :
    (table.insert key value).lookup other = if other = key then some value else table.lookup other := by
  split
  · next same =>
      rw [same]
      exact AList.lookup_insert table
  · next different => exact AList.lookup_insert_ne different

theorem lookup_erased (key other : Key) :
    (table.erase key).lookup other = if other = key then none else table.lookup other := by
  split
  · next same =>
      rw [same]
      exact AList.lookup_erase key table
  · next different => exact AList.lookup_erase_ne different

theorem lookup_eraseAll (keys : List Key) (other : Key) :
    (keys.foldl (fun map key => map.erase key) table).lookup other =
      if other ∈ keys then none else table.lookup other := by
  induction keys generalizing table with
  | nil => rw [if_neg List.not_mem_nil, List.foldl_nil]
  | cons key keys ih =>
      rw [List.foldl_cons, ih, lookup_erased]
      by_cases later : other ∈ keys
      · rw [if_pos later, if_pos (List.mem_cons_of_mem key later)]
      · by_cases same : other = key
        · rw [if_neg later, if_pos same, if_pos (List.mem_cons.mpr (.inl same))]
        · have absent : other ∉ key :: keys := fun member =>
            (List.mem_cons.mp member).elim same later
          rw [if_neg later, if_neg same, if_neg absent]

/-- Erasing the keys of a value leaves the entries with other values. -/
theorem lookup_eraseValue [DecidableEq Value] (value kept : Value) (key : Key) :
    ((table.entries.filterMap fun entry => if entry.2 = value then some entry.1 else none).foldl
        (fun map key => map.erase key) table).lookup key = some kept ↔
      table.lookup key = some kept ∧ kept ≠ value := by
  have listed : key ∈ (table.entries.filterMap fun entry =>
      if entry.2 = value then some entry.1 else none) ↔ table.lookup key = some value := by
    rw [List.mem_filterMap]
    constructor
    · rintro ⟨⟨key', value'⟩, member, chosen⟩
      split at chosen
      · next same =>
          cases chosen
          rw [← show value' = value from same]
          exact AList.mem_lookup_iff.mpr member
      · cases chosen
    · intro found
      exact ⟨⟨key, value⟩, AList.mem_lookup_iff.mp found, if_pos rfl⟩
  rw [lookup_eraseAll]
  split
  · next member =>
      have found := listed.mp member
      constructor
      · intro nothing
        cases nothing
      · rintro ⟨other, different⟩
        rw [found] at other
        exact absurd (Option.some.inj other).symm different
  · next absent =>
      refine ⟨fun found => ⟨found, fun same => ?_⟩, And.left⟩
      rw [same] at found
      exact absent (listed.mpr found)

end Tables

/-! The tables fit together. -/

/-- What holds however many connections are created. -/
structure Linked (writer : DirectWriter) : Prop where
  live : ∀ cid ptr, writer.connMap.lookup cid = some ptr →
    ∃ conn, writer.heap.lookup ptr = some conn ∧ conn.id = cid
  older : ∀ ptr conn, writer.heap.lookup ptr = some conn → ptr < writer.created

/-- What holds as long as the ids do not start again. -/
structure Sound (writer : DirectWriter) : Prop where
  linked : Linked writer
  counted : writer.cid.toNat = writer.created
  present : ∀ ptr conn, writer.heap.lookup ptr = some conn →
    writer.connMap.lookup conn.id = some ptr
  bounded : ∀ cid ptr, writer.connMap.lookup cid = some ptr → cid.toNat ≤ writer.created
  routed : ∀ sid cid, writer._sid2cid.lookup sid = some cid →
    ∃ ptr conn, writer.connMap.lookup cid = some ptr ∧ writer.heap.lookup ptr = some conn ∧
      getAddressFromSId sid = (conn.peerIp, conn.peerPort)
  distinct : ∀ sid sid' cid, writer._sid2cid.lookup sid = some cid →
    writer._sid2cid.lookup sid' = some cid → sid = sid'
  listed : ∀ ptr conn, writer.heap.lookup ptr = some conn → conn.isEnable = false →
    conn.id ∈ writer.lazyDelIds

theorem fresh_sound : Sound DirectWriter.fresh := by
  constructor
  · exact ⟨fun _ _ found => (nomatch found), fun _ _ found => (nomatch found)⟩
  · rfl
  · exact fun _ _ found => nomatch found
  · exact fun _ _ found => nomatch found
  · exact fun _ _ found => nomatch found
  · exact fun _ _ _ found => nomatch found
  · exact fun _ _ found => nomatch found

/-! An object changes, but not its id and address, and ids are listed. -/

section Changes
variable (writer : DirectWriter) (ptr : Nat) (conn after : Conn) (ids : List UInt32)

def change : DirectWriter :=
  { writer with heap := writer.heap.insert ptr after, lazyDelIds := ids }

theorem lookup_changed (found : writer.heap.lookup ptr = some conn) (other : Nat) (object : Conn)
    (is : writer.heap.lookup other = some object) :
    ∃ object', (writer.heap.insert ptr after).lookup other = some object' ∧
      (object' = object ∨ object = conn ∧ object' = after) := by
  rw [lookup_inserted]
  by_cases same : other = ptr
  · rw [same, found] at is
    rw [if_pos same]
    exact ⟨after, rfl, .inr ⟨(Option.some.inj is).symm, rfl⟩⟩
  · rw [if_neg same]
    exact ⟨object, is, .inl rfl⟩

theorem change_linked (linked : Linked writer) (found : writer.heap.lookup ptr = some conn)
    (id : after.id = conn.id) : Linked (change writer ptr after ids) := by
  constructor
  · intro cid other inMap
    obtain ⟨object, is, sameId⟩ := linked.live cid other inMap
    obtain ⟨object', is', kept | ⟨rfl, rfl⟩⟩ := lookup_changed writer ptr conn after found other
      object is
    · exact ⟨object', is', kept ▸ sameId⟩
    · exact ⟨object', is', id.trans sameId⟩
  · intro other object is
    change (writer.heap.insert ptr after).lookup other = some object at is
    rw [lookup_inserted] at is
    split at is
    · next same => exact same ▸ linked.older ptr conn found
    · exact linked.older other object is

theorem change_sound (sound : Sound writer) (found : writer.heap.lookup ptr = some conn)
    (id : after.id = conn.id)
    (address : (after.peerIp, after.peerPort) = (conn.peerIp, conn.peerPort))
    (grows : ∀ id ∈ writer.lazyDelIds, id ∈ ids)
    (disabled : after.isEnable = false → conn.id ∈ ids) : Sound (change writer ptr after ids) := by
  refine ⟨change_linked writer ptr conn after ids sound.linked found id, sound.counted, ?_,
    sound.bounded, ?_, sound.distinct, ?_⟩
  · intro other object is
    change (writer.heap.insert ptr after).lookup other = some object at is
    rw [lookup_inserted] at is
    split at is
    · next same =>
        cases is
        rw [same, id]
        exact sound.present ptr conn found
    · exact sound.present other object is
  · intro sid cid isRouted
    obtain ⟨other, object, inMap, is, opened⟩ := sound.routed sid cid isRouted
    obtain ⟨object', is', kept | ⟨rfl, rfl⟩⟩ := lookup_changed writer ptr conn after found other
      object is
    · exact ⟨other, object', inMap, is', kept ▸ opened⟩
    · exact ⟨other, object', inMap, is', opened.trans address.symm⟩
  · intro other object is off
    change (writer.heap.insert ptr after).lookup other = some object at is
    rw [lookup_inserted] at is
    split at is
    · cases is
      rw [id]
      exact disabled off
    · exact grows _ (sound.listed other object is off)

end Changes

/-! Erasing. -/

theorem lookup_eraseRoutes (writer : DirectWriter) (id : UInt32) (sid : UInt64) (cid : UInt32) :
    (writer.eraseRoutes id)._sid2cid.lookup sid = some cid ↔
      writer._sid2cid.lookup sid = some cid ∧ cid ≠ id :=
  lookup_eraseValue writer._sid2cid id cid sid

theorem eraseConnection_cases (writer : DirectWriter) (conn : Option Nat) :
    writer.eraseConnection conn = writer ∨
      ∃ ptr object, writer.heap.lookup ptr = some object ∧
        writer.eraseConnection conn = (writer.eraseRoutes object.id).eraseFromMap ptr object := by
  cases conn with
  | none => exact .inl rfl
  | some ptr =>
      cases found : writer.heap.lookup ptr with
      | none =>
          left
          simp only [DirectWriter.eraseConnection, found]
      | some object =>
          right
          refine ⟨ptr, object, found, ?_⟩
          simp only [DirectWriter.eraseConnection, found]

theorem eraseConnection_linked (writer : DirectWriter) (conn : Option Nat)
    (linked : Linked writer) : Linked (writer.eraseConnection conn) := by
  rcases eraseConnection_cases writer conn with same | ⟨ptr, object, found, same⟩
  · rw [same]
    exact linked
  · rw [same, DirectWriter.eraseFromMap]
    split
    · constructor
      · intro cid other inMap
        change (writer.connMap.erase object.id).lookup cid = some other at inMap
        change ∃ object', (writer.heap.erase ptr).lookup other = some object' ∧ _
        rw [lookup_erased] at inMap
        split at inMap
        · cases inMap
        · next kept =>
            obtain ⟨object', is, sameId⟩ := linked.live cid other inMap
            refine ⟨object', ?_, sameId⟩
            rw [lookup_erased, if_neg, is]
            -- An id that stays belongs to another object.
            rintro rfl
            rw [found] at is
            cases is
            exact kept sameId.symm
      · intro other object' is
        change (writer.heap.erase ptr).lookup other = some object' at is
        rw [lookup_erased] at is
        split at is
        · cases is
        · exact linked.older other object' is
    · exact ⟨linked.live, linked.older⟩

theorem eraseConnection_keeps (writer : DirectWriter) (conn : Option Nat) :
    (writer.eraseConnection conn).created = writer.created ∧
      (writer.eraseConnection conn).lazyDelIds = writer.lazyDelIds := by
  rcases eraseConnection_cases writer conn with same | ⟨ptr, object, found, same⟩
  · rw [same]
    exact ⟨rfl, rfl⟩
  · rw [same, DirectWriter.eraseFromMap]
    split
    · exact ⟨rfl, rfl⟩
    · exact ⟨rfl, rfl⟩

/-- An object of a sound writer leaves all tables. -/
theorem eraseConnection_found (writer : DirectWriter) (ptr : Nat) (object : Conn)
    (sound : Sound writer) (found : writer.heap.lookup ptr = some object) :
    (writer.eraseRoutes object.id).eraseFromMap ptr object =
      { writer.eraseRoutes object.id with
        connMap := writer.connMap.erase object.id
        heap := writer.heap.erase ptr } :=
  if_pos (Option.isSome_iff_exists.mpr ⟨ptr, sound.present ptr object found⟩)

theorem lookup_heap_erased (writer : DirectWriter) (ptr other : Nat) (object : Conn)
    (is : (writer.heap.erase ptr).lookup other = some object) :
    other ≠ ptr ∧ writer.heap.lookup other = some object := by
  rw [lookup_erased] at is
  split at is
  · cases is
  · next different => exact ⟨different, is⟩

/-- Another object has another id. -/
theorem ids_apart (writer : DirectWriter) (sound : Sound writer) (ptr other : Nat)
    (object object' : Conn) (found : writer.heap.lookup ptr = some object)
    (is : writer.heap.lookup other = some object') (different : other ≠ ptr) :
    object'.id ≠ object.id := by
  intro sameId
  have placed := sound.present other object' is
  rw [sameId, sound.present ptr object found] at placed
  exact different (Option.some.inj placed).symm

theorem eraseConnection_sound (writer : DirectWriter) (conn : Option Nat) (sound : Sound writer) :
    Sound (writer.eraseConnection conn) := by
  have linked := eraseConnection_linked writer conn sound.linked
  rcases eraseConnection_cases writer conn with same | ⟨ptr, object, found, same⟩
  · rw [same]
    exact sound
  · rw [same, eraseConnection_found writer ptr object sound found] at linked ⊢
    have apart := fun other object' => ids_apart writer sound ptr other object object' found
    have kept := lookup_heap_erased writer ptr
    refine ⟨linked, sound.counted, ?_, ?_, ?_, ?_, ?_⟩
    · intro other object' is
      obtain ⟨different, was⟩ := kept other object' is
      change (writer.connMap.erase object.id).lookup object'.id = some other
      rw [lookup_erased, if_neg (apart other object' was different)]
      exact sound.present other object' was
    · intro cid other found'
      change (writer.connMap.erase object.id).lookup cid = some other at found'
      rw [lookup_erased] at found'
      split at found'
      · cases found'
      · exact sound.bounded cid other found'
    · intro sid cid isRouted
      obtain ⟨was, different⟩ := (lookup_eraseRoutes writer object.id sid cid).mp isRouted
      obtain ⟨other, object', placed, is, opened⟩ := sound.routed sid cid was
      refine ⟨other, object', ?_, ?_, opened⟩
      · change (writer.connMap.erase object.id).lookup cid = some other
        rw [lookup_erased, if_neg different]
        exact placed
      · change (writer.heap.erase ptr).lookup other = some object'
        rw [lookup_erased, if_neg, is]
        rintro rfl
        obtain ⟨object'', is', sameId⟩ := sound.linked.live cid other placed
        rw [found] at is'
        cases is'
        exact different sameId.symm
    · intro sid sid' cid first second
      exact sound.distinct sid sid' cid ((lookup_eraseRoutes writer object.id sid cid).mp first).1
        ((lookup_eraseRoutes writer object.id sid' cid).mp second).1
    · intro other object' is off
      exact sound.listed other object' (kept other object' is).2 off

theorem eraseConnectionById_is (writer : DirectWriter) (id : UInt32) :
    ∃ conn, writer.eraseConnectionById id = writer.eraseConnection conn := by
  rw [DirectWriter.eraseConnectionById]
  split
  · exact ⟨none, rfl⟩
  · next ptr found => exact ⟨some ptr, rfl⟩

/-- One id of the loop: its connection is erased if it is disabled. -/
theorem eraseDisabled_step (id : UInt32) (writer : DirectWriter) (sound : Sound writer) :
    ∃ between, (∀ rest, DirectWriter.eraseDisabled (id :: rest) writer =
        DirectWriter.eraseDisabled rest between) ∧ Sound between ∧
      between.lazyDelIds = writer.lazyDelIds ∧
      ∀ ptr conn, between.heap.lookup ptr = some conn →
        writer.heap.lookup ptr = some conn ∧ (conn.isEnable = false → conn.id ≠ id) := by
  cases inMap : writer.connMap.lookup id with
  | none =>
      refine ⟨writer, fun rest => ?_, sound, rfl, fun ptr conn is => ⟨is, fun _ same => ?_⟩⟩
      · rw [DirectWriter.eraseDisabled, inMap]
      · have placed := sound.present ptr conn is
        rw [same, inMap] at placed
        cases placed
  | some ptr =>
      obtain ⟨object, found, sameId⟩ := sound.linked.live id ptr inMap
      have apart (other : Nat) (conn : Conn) (is : writer.heap.lookup other = some conn)
          (different : other ≠ ptr) : conn.id ≠ id :=
        sameId ▸ ids_apart writer sound ptr other object conn found is different
      cases enabled : object.isEnable with
      | true =>
          refine ⟨writer, fun rest => ?_, sound, rfl, fun other conn is => ⟨is, fun off => ?_⟩⟩
          · simp only [DirectWriter.eraseDisabled, inMap, found, Option.any_some, enabled,
              Bool.not_true, Bool.false_eq_true, if_false]
          · apply apart other conn is
            rintro rfl
            rw [found] at is
            cases is
            rw [enabled] at off
            cases off
      | false =>
          refine ⟨writer.eraseConnection (some ptr), fun rest => ?_,
            eraseConnection_sound writer (some ptr) sound, (eraseConnection_keeps writer _).2,
            fun other conn left_ => ?_⟩
          · simp only [DirectWriter.eraseDisabled, inMap, found, Option.any_some, enabled,
              Bool.not_false, if_true]
          · have erased : (writer.eraseConnection (some ptr)).heap = writer.heap.erase ptr := by
              simp only [DirectWriter.eraseConnection, found,
                eraseConnection_found writer ptr object sound found]
            rw [erased] at left_
            obtain ⟨different, was⟩ := lookup_heap_erased writer ptr other conn left_
            exact ⟨was, fun _ => apart other conn was different⟩

/-- The loop leaves no disabled connection of its ids. -/
theorem eraseDisabled_sound (ids : List UInt32) (writer : DirectWriter) (sound : Sound writer) :
    ∃ after, DirectWriter.eraseDisabled ids writer = after ∧ Sound after ∧
      after.lazyDelIds = writer.lazyDelIds ∧
      ∀ ptr conn, after.heap.lookup ptr = some conn →
        writer.heap.lookup ptr = some conn ∧ (conn.isEnable = false → conn.id ∉ ids) := by
  induction ids generalizing writer with
  | nil =>
      exact ⟨writer, rfl, sound, rfl, fun ptr conn is => ⟨is, fun _ => List.not_mem_nil⟩⟩
  | cons id rest ih =>
      obtain ⟨between, goesOn, sound', listed, objects⟩ := eraseDisabled_step id writer sound
      obtain ⟨after, done, sound'', listed', objects'⟩ := ih between sound'
      refine ⟨after, (goesOn rest).trans done, sound'', listed'.trans listed, fun ptr conn is => ?_⟩
      obtain ⟨kept, others⟩ := objects' ptr conn is
      obtain ⟨was, different⟩ := objects ptr conn kept
      refine ⟨was, fun off member => ?_⟩
      rcases List.mem_cons.mp member with same | later
      · exact different off same
      · exact others off later

theorem doEvent_sound (writer : DirectWriter) (sound : Sound writer) : Sound writer.doEvent := by
  obtain ⟨after, done, sound', -, objects⟩ := eraseDisabled_sound writer.lazyDelIds writer sound
  rw [DirectWriter.doEvent, done]
  refine ⟨⟨sound'.linked.live, sound'.linked.older⟩, sound'.counted, sound'.present, sound'.bounded,
    sound'.routed, sound'.distinct, fun ptr conn is off => ?_⟩
  obtain ⟨was, others⟩ := objects ptr conn is
  exact absurd (sound.listed ptr conn was off) (others off)

/-! Opening. -/

/-- A connection is created and routed. -/
def opened (writer : DirectWriter) (sid : UInt64) (conn : Conn) : DirectWriter :=
  { writer with
    _sid2cid := writer._sid2cid.insert sid conn.id
    cid := conn.id
    connMap := writer.connMap.insert conn.id writer.created
    heap := writer.heap.insert writer.created conn
    created := writer.created + 1 }

section Opened
variable (writer : DirectWriter) (sid : UInt64) (conn : Conn)

theorem lookup_opened (linked : Linked writer) (ptr : Nat) (object : Conn)
    (is : writer.heap.lookup ptr = some object) :
    (writer.heap.insert writer.created conn).lookup ptr = some object := by
  have old := linked.older ptr object is
  rw [lookup_inserted, if_neg (by omega)]
  exact is

theorem opened_linked (linked : Linked writer) : Linked (opened writer sid conn) := by
  constructor
  · intro cid ptr inMap
    change (writer.connMap.insert conn.id writer.created).lookup cid = some ptr at inMap
    change ∃ object, (writer.heap.insert writer.created conn).lookup ptr = some object ∧ _
    rw [lookup_inserted] at inMap
    split at inMap
    · next same =>
        cases inMap
        rw [same]
        exact ⟨conn, AList.lookup_insert _, rfl⟩
    · obtain ⟨object, is, sameId⟩ := linked.live cid ptr inMap
      exact ⟨object, lookup_opened writer conn linked ptr object is, sameId⟩
  · intro ptr object is
    change (writer.heap.insert writer.created conn).lookup ptr = some object at is
    change ptr < writer.created + 1
    rw [lookup_inserted] at is
    split at is
    · omega
    · have old := linked.older ptr object is
      omega

theorem opened_id (sound : Sound writer) (few : writer.created + 1 < 2 ^ 32)
    (id : conn.id = writer.cid + 1) : conn.id.toNat = writer.created + 1 := by
  have counted := sound.counted
  rw [id, UInt32.toNat_add, UInt32.toNat_one]
  omega

/-- The new id is not in use yet. -/
theorem opened_unused (sound : Sound writer) (next_ : conn.id.toNat = writer.created + 1)
    (cid : UInt32) (ptr : Nat) (inMap : writer.connMap.lookup cid = some ptr) : cid ≠ conn.id := by
  rintro rfl
  have old := sound.bounded _ ptr inMap
  omega

theorem opened_unrouted (sound : Sound writer) (next_ : conn.id.toNat = writer.created + 1)
    (sid' : UInt64) (cid : UInt32) (isRouted : writer._sid2cid.lookup sid' = some cid) :
    cid ≠ conn.id := by
  obtain ⟨ptr, object, inMap, -, -⟩ := sound.routed sid' cid isRouted
  exact opened_unused writer conn sound next_ cid ptr inMap

theorem opened_present (sound : Sound writer) (next_ : conn.id.toNat = writer.created + 1)
    (ptr : Nat) (object : Conn) (is : (opened writer sid conn).heap.lookup ptr = some object) :
    (opened writer sid conn).connMap.lookup object.id = some ptr := by
  change (writer.heap.insert writer.created conn).lookup ptr = some object at is
  change (writer.connMap.insert conn.id writer.created).lookup object.id = some ptr
  rw [lookup_inserted] at is ⊢
  split at is
  · next same =>
      cases is
      rw [if_pos rfl, same]
  · have placed := sound.present ptr object is
    rw [if_neg (opened_unused writer conn sound next_ _ ptr placed)]
    exact placed

theorem opened_bounded (sound : Sound writer) (next_ : conn.id.toNat = writer.created + 1)
    (cid : UInt32) (ptr : Nat) (inMap : (opened writer sid conn).connMap.lookup cid = some ptr) :
    cid.toNat ≤ writer.created + 1 := by
  change (writer.connMap.insert conn.id writer.created).lookup cid = some ptr at inMap
  rw [lookup_inserted] at inMap
  split at inMap
  · next same => rw [same, next_]
  · have old := sound.bounded cid ptr inMap
    omega

theorem opened_routed (sound : Sound writer) (next_ : conn.id.toNat = writer.created + 1)
    (address : getAddressFromSId sid = (conn.peerIp, conn.peerPort)) (sid' : UInt64) (cid : UInt32)
    (isRouted : (opened writer sid conn)._sid2cid.lookup sid' = some cid) :
    ∃ ptr object, (opened writer sid conn).connMap.lookup cid = some ptr ∧
      (opened writer sid conn).heap.lookup ptr = some object ∧
      getAddressFromSId sid' = (object.peerIp, object.peerPort) := by
  change (writer._sid2cid.insert sid conn.id).lookup sid' = some cid at isRouted
  rw [lookup_inserted] at isRouted
  split at isRouted
  · next same =>
      cases isRouted
      rw [same]
      exact ⟨writer.created, conn, AList.lookup_insert _, AList.lookup_insert _, address⟩
  · obtain ⟨ptr, object, inMap, is, was⟩ := sound.routed sid' cid isRouted
    refine ⟨ptr, object, ?_, lookup_opened writer conn sound.linked ptr object is, was⟩
    change (writer.connMap.insert conn.id writer.created).lookup cid = some ptr
    rw [lookup_inserted, if_neg (opened_unused writer conn sound next_ cid ptr inMap)]
    exact inMap

theorem opened_distinct (sound : Sound writer) (next_ : conn.id.toNat = writer.created + 1)
    (first second : UInt64) (cid : UInt32)
    (one : (opened writer sid conn)._sid2cid.lookup first = some cid)
    (two : (opened writer sid conn)._sid2cid.lookup second = some cid) : first = second := by
  have unrouted := opened_unrouted writer conn sound next_
  change (writer._sid2cid.insert sid conn.id).lookup first = some cid at one
  change (writer._sid2cid.insert sid conn.id).lookup second = some cid at two
  rw [lookup_inserted] at one two
  split at one
  · next same =>
      cases one
      split at two
      · next same' => rw [same, same']
      · exact absurd rfl (unrouted second _ two)
  · split at two
    · cases two
      exact absurd rfl (unrouted first _ one)
    · exact sound.distinct first second cid one two

theorem opened_sound (sound : Sound writer) (few : writer.created + 1 < 2 ^ 32)
    (id : conn.id = writer.cid + 1)
    (address : getAddressFromSId sid = (conn.peerIp, conn.peerPort))
    (enabled : conn.isEnable = true) : Sound (opened writer sid conn) := by
  have next_ := opened_id writer conn sound few id
  refine ⟨opened_linked writer sid conn sound.linked, next_,
    opened_present writer sid conn sound next_, opened_bounded writer sid conn sound next_,
    opened_routed writer sid conn sound next_ address, opened_distinct writer sid conn sound next_,
    fun ptr object is off => ?_⟩
  change (writer.heap.insert writer.created conn).lookup ptr = some object at is
  rw [lookup_inserted] at is
  split at is
  · cases is
    rw [enabled] at off
    cases off
  · exact sound.listed ptr object is off

end Opened

/-! What a call can do. -/

inductive Evolves : DirectWriter → DirectWriter → Prop where
  | stays (writer : DirectWriter) : Evolves writer writer
  | changes (writer : DirectWriter) (ptr : Nat) (conn after : Conn) (ids : List UInt32)
      (found : writer.heap.lookup ptr = some conn) (id : after.id = conn.id)
      (address : (after.peerIp, after.peerPort) = (conn.peerIp, conn.peerPort))
      (grows : ∀ id ∈ writer.lazyDelIds, id ∈ ids)
      (disabled : after.isEnable = false → conn.isEnable = false ∨ conn.id ∈ ids) :
      Evolves writer (change writer ptr after ids)
  | opens (writer : DirectWriter) (sid : UInt64) (conn : Conn) (id : conn.id = writer.cid + 1)
      (address : getAddressFromSId sid = (conn.peerIp, conn.peerPort))
      (enabled : conn.isEnable = true) : Evolves writer (opened writer sid conn)
  | erases (writer : DirectWriter) (conn : Option Nat) :
      Evolves writer (writer.eraseConnection conn)
  | through (writer between after : DirectWriter) (first : Evolves writer between)
      (second : Evolves between after) : Evolves writer after

theorem evolves_created (writer after : DirectWriter) (evolves : Evolves writer after) :
    writer.created ≤ after.created := by
  induction evolves with
  | stays writer => exact Nat.le_refl _
  | changes writer ptr conn after ids found id address grows disabled => exact Nat.le_refl _
  | opens writer sid conn id address enabled => exact Nat.le_succ _
  | erases writer conn => exact (eraseConnection_keeps writer conn).1.ge
  | through writer between after first second ih ih' => exact ih.trans ih'

theorem evolves_linked (writer after : DirectWriter) (evolves : Evolves writer after)
    (linked : Linked writer) : Linked after := by
  induction evolves with
  | stays writer => exact linked
  | changes writer ptr conn after ids found id address grows disabled =>
      exact change_linked writer ptr conn after ids linked found id
  | opens writer sid conn id address enabled => exact opened_linked writer sid conn linked
  | erases writer conn => exact eraseConnection_linked writer conn linked
  | through writer between after first second ih ih' => exact ih' (ih linked)

theorem evolves_sound (writer after : DirectWriter) (evolves : Evolves writer after)
    (few : after.created < 2 ^ 32) (sound : Sound writer) : Sound after := by
  induction evolves with
  | stays writer => exact sound
  | changes writer ptr conn after ids found id address grows disabled =>
      refine change_sound writer ptr conn after ids sound found id address grows fun off => ?_
      rcases disabled off with was | listed
      · exact grows _ (sound.listed ptr conn found was)
      · exact listed
  | opens writer sid conn id address enabled =>
      exact opened_sound writer sid conn sound few id address enabled
  | erases writer conn => exact eraseConnection_sound writer conn sound
  | through writer between after first second ih ih' =>
      have fewer := (evolves_created between after second).trans_lt few
      exact ih' few (ih fewer sound)

theorem evolves_store (writer : DirectWriter) (ptr : Nat) (conn after : Conn)
    (found : writer.heap.lookup ptr = some conn) (id : after.id = conn.id)
    (address : (after.peerIp, after.peerPort) = (conn.peerIp, conn.peerPort))
    (enabled : after.isEnable = conn.isEnable) : Evolves writer (writer.store ptr after) :=
  .changes writer ptr conn after writer.lazyDelIds found id address (fun _ member => member)
    fun off => .inl (enabled.symm.trans off)

theorem evolves_delay (writer : DirectWriter) (ptr : Nat) (conn after : Conn) (id : UInt32)
    (found : writer.heap.lookup ptr = some conn) (sameId : after.id = conn.id)
    (address : (after.peerIp, after.peerPort) = (conn.peerIp, conn.peerPort))
    (listed : conn.id = id) : Evolves writer (writer.delay ptr after id) :=
  .changes writer ptr conn (after.setEnable false) (writer.lazyDelIds.insert id) found sameId address
    (fun _ member => List.mem_insert_of_mem member)
    fun _ => .inr (listed ▸ List.mem_insert_self)

theorem send_keeps (kernel : Kernel) (sender : JsonSender) (conn : Conn) :
    (conn.send kernel sender).2.id = conn.id ∧
      ((conn.send kernel sender).2.peerIp, (conn.send kernel sender).2.peerPort) =
        (conn.peerIp, conn.peerPort) ∧
      (conn.send kernel sender).2.isEnable = conn.isEnable := by
  rw [Conn.send]
  split
  · exact ⟨rfl, rfl, rfl⟩
  · next packed done => exact ⟨rfl, rfl, conn.io.sendBin_bEnable kernel packed.sent⟩

theorem dispatchById_evolves (writer : DirectWriter) (kernel : Kernel) (cid : UInt32)
    (sender : JsonSender) (linked : Linked writer) :
    Evolves writer (writer.dispatchById kernel cid sender).2 := by
  rw [DirectWriter.dispatchById]
  split
  · exact .stays writer
  · next ptr inMap =>
      obtain ⟨conn, found, listed⟩ := linked.live cid ptr inMap
      obtain ⟨id, address, enabled⟩ := send_keeps kernel sender conn
      simp only [found]
      cases done : conn.send kernel sender with
      | mk result after =>
          rw [done] at id address enabled
          cases result with
          | ok _ => exact evolves_store writer ptr conn after found id address enabled
          | error exn => exact evolves_delay writer ptr conn after cid found id address listed

theorem DelayDelConn_evolves (writer : DirectWriter) (conn : Option Nat) :
    Evolves writer (writer.DelayDelConn conn) := by
  cases conn with
  | none => exact .stays writer
  | some ptr =>
      cases found : writer.heap.lookup ptr with
      | none =>
          simp only [DirectWriter.DelayDelConn, found]
          exact .stays writer
      | some conn =>
          simp only [DirectWriter.DelayDelConn, found]
          exact evolves_delay writer ptr conn conn conn.id found rfl rfl rfl

theorem connEvent_evolves (writer : DirectWriter) (ptr : Nat) (event : SockEvent) (error : Int32)
    (kernel : Kernel) : Evolves writer (writer.connEvent ptr event error kernel) := by
  rw [DirectWriter.connEvent]
  split
  · exact .stays writer
  · next conn found =>
      have enabled := conn.io.doEvent_bEnable kernel event error
      have stored := evolves_store writer ptr conn
        { conn with io := (conn.io.doEvent event error kernel).2 } found rfl rfl enabled
      simp only
      split
      · exact .through writer _ _ stored (.erases _ (some ptr))
      · exact stored

/-! A connection that is opened. -/

/-- Everything that was sent on a connection or waits to be. -/
def Conn.stream (conn : Conn) : Bytes := conn.io.wire ++ conn.io._output.content

theorem register_made (immediate : Bool) (kernel : Kernel) :
    ∃ io, (Connection.make .CONNECT immediate).register kernel = (.ok (), io) ∧
      io.bEnable = true ∧ io.wire ++ io._output.content = [] := by
  cases immediate with
  | false => exact ⟨_, rfl, rfl, rfl⟩
  | true => exact ⟨_, rfl, rfl, rfl⟩

theorem connectServer_cases (writer : DirectWriter) (serverId : UInt64) (connect : Connect)
    (kernel : Kernel) (ip : UInt32) (port : UInt16) :
    writer.connectServer serverId ip port connect kernel = (none, writer) ∨
      ∃ conn : Conn, conn.id = writer.cid + 1 ∧ (conn.peerIp, conn.peerPort) = (ip, port) ∧
        conn.isEnable = true ∧ conn.stream = [] ∧
        writer.connectServer serverId ip port connect kernel =
          (some writer.created, opened writer serverId conn) := by
  by_cases noServer : serverId = -1
  · exact .inl (if_pos noServer)
  · cases connect with
    | refused => exact .inl (if_neg noServer)
    | begun immediate =>
        obtain ⟨io, registered, enabled, nothing⟩ := register_made immediate kernel
        right
        refine ⟨⟨writer.cid + 1, ip, port, io⟩, rfl, rfl, enabled, nothing, ?_⟩
        have sameIp := aton_ntoa ip
        have samePort : port.toUInt32.toUInt16 = port := UInt16.toUInt16_toUInt32 port
        simp only [DirectWriter.connectServer, if_neg noServer, DirectWriter.createConnection,
          registered, DirectWriter.store, DirectWriter.onConnCreate, AList.lookup_insert,
          AList.insert_insert, sameIp, samePort]
        rfl

theorem route_evolves (writer : DirectWriter) (sid : UInt64) (outgoing : Outgoing)
    (connect : Connect) (kernel : Kernel) (linked : Linked writer) :
    Evolves writer (writer.route sid outgoing connect kernel).2 := by
  simp only [DirectWriter.route, DirectWriter.dispatch]
  cases JsonSender.make outgoing.stale outgoing.uri outgoing.body with
  | none => exact .stays writer
  | some sender =>
      cases writer._sid2cid.lookup sid with
      | some cid => exact dispatchById_evolves writer kernel cid sender linked
      | none =>
          rcases connectServer_cases writer sid connect kernel (getAddressFromSId sid).1
            (getAddressFromSId sid).2 with refused | ⟨conn, id, address, enabled, -, begun⟩
          · simp only [refused]
            exact .stays writer
          · have found : (opened writer sid conn).heap.lookup writer.created = some conn :=
              AList.lookup_insert _
            have opens : Evolves writer (opened writer sid conn) :=
              .opens writer sid conn id address.symm enabled
            obtain ⟨id', address', enabled'⟩ := send_keeps kernel sender conn
            simp only [begun, found]
            cases sent : conn.send kernel sender with
            | mk result after =>
                rw [sent] at id' address' enabled'
                have stored := evolves_store _ writer.created conn after found id' address' enabled'
                cases result with
                | ok _ => exact .through writer _ _ opens stored
                | error exn => exact .through writer _ _ opens stored

theorem call_evolves (writer : DirectWriter) (call : WriterCall) (linked : Linked writer)
    (notLazy : call ≠ .doEvent) : Evolves writer (directWriter call writer).2 := by
  cases call with
  | sendTo ipport outgoing connect kernel =>
      simp only [directWriter, DirectWriter.sendTo]
      split
      · exact .stays writer
      · exact .stays writer
      · next serverId _ => exact route_evolves writer serverId outgoing connect kernel linked
  | route sid outgoing connect kernel =>
      exact route_evolves writer sid outgoing connect kernel linked
  | dispatchById cid outgoing kernel =>
      simp only [directWriter]
      split
      · exact .stays writer
      · next sender _ => exact dispatchById_evolves writer kernel cid sender linked
  | closed conn => exact .erases writer conn
  | eraseConnectionById id =>
      obtain ⟨conn, same⟩ := eraseConnectionById_is writer id
      simp only [directWriter, same]
      exact .erases writer conn
  | DelayDelConn conn => exact DelayDelConn_evolves writer conn
  | doEvent => exact absurd rfl notLazy
  | connEvent ptr event error kernel => exact connEvent_evolves writer ptr event error kernel

theorem eraseDisabled_evolves (ids : List UInt32) (writer : DirectWriter) :
    Evolves writer (DirectWriter.eraseDisabled ids writer) := by
  induction ids generalizing writer with
  | nil => exact .stays writer
  | cons id rest ih =>
      rw [DirectWriter.eraseDisabled]
      split
      · exact ih writer
      · next ptr _ =>
          split
          · exact .through writer _ _ (.erases writer (some ptr)) (ih _)
          · exact ih writer

theorem call_linked (writer : DirectWriter) (call : WriterCall) (linked : Linked writer) :
    Linked (directWriter call writer).2 := by
  by_cases lazily : call = .doEvent
  · subst lazily
    have erased := evolves_linked writer _ (eraseDisabled_evolves writer.lazyDelIds writer) linked
    exact ⟨erased.live, erased.older⟩
  · exact evolves_linked writer _ (call_evolves writer call linked lazily) linked

theorem call_created (writer : DirectWriter) (call : WriterCall) (linked : Linked writer) :
    writer.created ≤ (directWriter call writer).2.created := by
  by_cases lazily : call = .doEvent
  · subst lazily
    exact evolves_created writer (DirectWriter.eraseDisabled writer.lazyDelIds writer)
      (eraseDisabled_evolves writer.lazyDelIds writer)
  · exact evolves_created writer _ (call_evolves writer call linked lazily)

theorem call_sound (writer : DirectWriter) (call : WriterCall)
    (few : (directWriter call writer).2.created < 2 ^ 32) (sound : Sound writer) :
    Sound (directWriter call writer).2 := by
  by_cases lazily : call = .doEvent
  · -- The ids are forgotten, and no disabled connection is left that had one of them.
    subst lazily
    exact doEvent_sound writer sound
  · exact evolves_sound writer _ (call_evolves writer call sound.linked lazily) few sound

theorem calls_created (calls : List WriterCall) (writer : DirectWriter) (linked : Linked writer) :
    writer.created ≤ (runAll directWriter Program.perform writer calls).created := by
  induction calls generalizing writer with
  | nil => exact Nat.le_refl _
  | cons call calls ih =>
      exact (call_created writer call linked).trans (ih _ (call_linked writer call linked))

theorem calls_sound (calls : List WriterCall) (writer : DirectWriter)
    (few : (runAll directWriter Program.perform writer calls).created < 2 ^ 32)
    (sound : Sound writer) : Sound (runAll directWriter Program.perform writer calls) := by
  induction calls generalizing writer with
  | nil => exact sound
  | cons call calls ih =>
      have linked := call_linked writer call sound.linked
      have fewer := (calls_created calls _ linked).trans_lt few
      exact ih _ few (call_sound writer call fewer sound)

/-- After every run that creates fewer than 2^32 connections: a server's route
leads to a connection in the map that is not deleted, has the id and was opened
to the server's address; two servers have two ids; dispatching by the id of a
route finds the connection; and a disabled connection is listed for the lazy
deletion. -/
theorem routes_live (calls : List WriterCall)
    (few : (runAll directWriter Program.perform DirectWriter.fresh calls).created < 2 ^ 32) :
    ∃ writer, runAll directWriter Program.perform DirectWriter.fresh calls = writer ∧
      (∀ sid cid, writer._sid2cid.lookup sid = some cid →
        ∃ ptr conn, writer.connMap.lookup cid = some ptr ∧
          writer.heap.lookup ptr = some conn ∧ conn.id = cid ∧
          (conn.peerIp, conn.peerPort) = getAddressFromSId sid ∧
          ∀ kernel sender, writer.dispatchById kernel cid sender =
            match conn.send kernel sender with
            | (.ok (), after) => (true, writer.store ptr after)
            | (.error _, after) => (false, writer.delay ptr after cid)) ∧
      (∀ sid sid' cid, writer._sid2cid.lookup sid = some cid →
        writer._sid2cid.lookup sid' = some cid → sid = sid') ∧
      ∀ cid ptr conn, writer.connMap.lookup cid = some ptr → writer.heap.lookup ptr = some conn →
        conn.isEnable = false → cid ∈ writer.lazyDelIds := by
  have sound := calls_sound calls DirectWriter.fresh few fresh_sound
  generalize runAll directWriter Program.perform DirectWriter.fresh calls = writer at *
  refine ⟨writer, rfl, fun sid cid isRouted => ?_, sound.distinct,
    fun cid ptr conn inMap is off => ?_⟩
  · obtain ⟨ptr, conn, inMap, is, address⟩ := sound.routed sid cid isRouted
    obtain ⟨conn', is', sameId⟩ := sound.linked.live cid ptr inMap
    rw [is] at is'
    cases is'
    refine ⟨ptr, conn, inMap, is, sameId, address.symm, fun kernel sender => ?_⟩
    rw [DirectWriter.dispatchById, inMap]
    simp only [is]
  · obtain ⟨conn', is', sameId⟩ := sound.linked.live cid ptr inMap
    rw [is] at is'
    cases is'
    exact sameId ▸ sound.listed ptr conn is off

/-- A message to two nodes; sending the second one to the first node fails, so
its connection is deleted later, and the node is connected again. -/
def twoNodes : List WriterCall :=
  [.sendTo (ascii "127.0.0.1:8080") ⟨1, [65], 0⟩ (.begun true) (.takes 100),
    .sendTo (ascii "127.0.0.1:8081") ⟨1, [66], 0⟩ (.begun false) (.takes 100),
    .sendTo (ascii "127.0.0.1:8080") ⟨1, [67], 0⟩ .refused (.fails 104), .doEvent,
    .sendTo (ascii "127.0.0.1:8080") ⟨1, [68], 0⟩ (.begun true) (.takes 3)]

theorem routes_live_twoNodes :
    ∃ writer, runAll directWriter Program.perform DirectWriter.fresh twoNodes = writer ∧
      (∀ sid cid, writer._sid2cid.lookup sid = some cid →
        ∃ ptr conn, writer.connMap.lookup cid = some ptr ∧
          writer.heap.lookup ptr = some conn ∧ conn.id = cid ∧
          (conn.peerIp, conn.peerPort) = getAddressFromSId sid ∧
          ∀ kernel sender, writer.dispatchById kernel cid sender =
            match conn.send kernel sender with
            | (.ok (), after) => (true, writer.store ptr after)
            | (.error _, after) => (false, writer.delay ptr after cid)) ∧
      (∀ sid sid' cid, writer._sid2cid.lookup sid = some cid →
        writer._sid2cid.lookup sid' = some cid → sid = sid') ∧
      ∀ cid ptr conn, writer.connMap.lookup cid = some ptr → writer.heap.lookup ptr = some conn →
        conn.isEnable = false → cid ∈ writer.lazyDelIds :=
  routes_live twoNodes (by decide +kernel)

end FPayNode.RoutedConnections
