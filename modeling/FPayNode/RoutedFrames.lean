import FPayNode.RoutedConnections

/-!
Whether `DirectWriter::dispatch` returns true for messages that were appended to
a connection. `sendBin` does nothing on a disabled connection and throws
nothing, and a connection that a send failed on keeps its route until the next
lazy deletion.
-/

namespace FPayNode.RoutedFrames

open CommandProgram DecimalText ByteStream JsonFrames SenderFrames OutputStream RoutedConnections

/-- The header and the body of a message. -/
def frame (outgoing : Outgoing) : Bytes :=
  headerBytes outgoing.uri outgoing.body.length ++ outgoing.body

/-- Nothing was sent on a connection that is not there yet. -/
def streamOf (writer : DirectWriter) (ptr : Nat) : Bytes :=
  (writer.heap.lookup ptr).elim [] Conn.stream

/-- The bytes stand at the end of the stream of a connection in the map. -/
def Appended (before after : DirectWriter) (bytes : Bytes) : Prop :=
  ∃ cid ptr conn, after.connMap.lookup cid = some ptr ∧ after.heap.lookup ptr = some conn ∧
    conn.stream = streamOf before ptr ++ bytes

/-- The server and the message that `dispatch` is called with. -/
def dispatched : WriterCall → Option (UInt64 × Outgoing)
  | .route sid outgoing _ _ => some (sid, outgoing)
  | .sendTo ipport outgoing _ _ =>
      match serverOf ipport with
      | .ok (some sid) => some (sid, outgoing)
      | _ => none
  | _ => none

/-- If `dispatch` returns true, the frame has been appended. -/
def Delivers (writer : DirectWriter) (call : WriterCall) : Prop :=
  ∀ sid outgoing, dispatched call = some (sid, outgoing) →
    (directWriter call writer).1 = .ok (some true) →
      Appended writer (directWriter call writer).2 (frame outgoing)

/-- The message is too long for a pack buffer, or the server's connection, if it
has one, is enabled. -/
def Enabled (writer : DirectWriter) (call : WriterCall) : Prop :=
  ∀ sid outgoing, dispatched call = some (sid, outgoing) →
    HEADER_SIZE + outgoing.body.length ≤ 65536 * (16 * 1024) →
      ∀ cid ptr conn, writer._sid2cid.lookup sid = some cid →
        writer.connMap.lookup cid = some ptr → writer.heap.lookup ptr = some conn →
          conn.isEnable = true

/-! Packing. -/

theorem make_packs (outgoing : Outgoing)
    (room : HEADER_SIZE + outgoing.body.length ≤ 65536 * (16 * 1024)) :
    ∃ sender packed, JsonSender.make outgoing.stale outgoing.uri outgoing.body = some sender ∧
      sender.endPack = some packed ∧ packed.sent = frame outgoing := by
  obtain ⟨pb, made, content⟩ := make_some outgoing.stale outgoing.uri outgoing.body room
  obtain ⟨pb', packed, content'⟩ := endPack_pieces ⟨pb, 0, 9, outgoing.stale, outgoing.uri, -1⟩
    [0, 0, 0, 0] [0, 0, 0, 0] [0] outgoing.body rfl rfl rfl rfl content
  refine ⟨_, _, made, packed, ?_⟩
  have whole : pb'.content = frame outgoing := content'
  have length : pb'.content.length = 9 + outgoing.body.length := by
    rw [whole, frame, List.length_append, headerBytes_length]
  change (pb'.content.drop 0).take (HEADER_SIZE + (pb'.content.length - 9)) = _
  rw [List.drop_zero, List.take_of_length_le, whole]
  rw [HEADER_SIZE]
  omega

theorem make_too_long (outgoing : Outgoing)
    (long : ¬ HEADER_SIZE + outgoing.body.length ≤ 65536 * (16 * 1024)) :
    JsonSender.make outgoing.stale outgoing.uri outgoing.body = none := by
  obtain ⟨empty, first, nothing⟩ := writeStream_some BlockBuffers.BlockBuffer.fresh 0 (by decide)
  have bare : empty.content = [] := nothing
  obtain ⟨zeros, second, blank⟩ := writeStream_some empty HEADER_SIZE (by rw [bare]; decide)
  rw [bare, List.nil_append] at blank
  rw [bare] at second
  have refused := BlockMemory.append_too_long zeros outgoing.body (by
    rw [blank, List.length_append, List.length_replicate]
    exact long)
  simp only [JsonSender.make, Option.bind_eq_bind, first, Option.bind_some, second, refused,
    Option.bind_none]

/-! Sending. -/

section Send
variable (kernel : Kernel) (sender packed : JsonSender) (conn : Conn)

theorem send_ok (after : Conn) (done : sender.endPack = some packed)
    (enabled : conn.isEnable = true) (sent : conn.send kernel sender = (.ok (), after)) :
    after.stream = conn.stream ++ packed.sent := by
  rw [Conn.send, done] at sent
  cases binary : conn.io.sendBin kernel packed.sent with
  | mk result io =>
      simp only [binary] at sent
      cases sent
      exact conn.io.sendBin_ok io kernel packed.sent enabled binary

theorem send_disabled (done : sender.endPack = some packed) (disabled : conn.isEnable = false) :
    conn.send kernel sender = (.ok (), conn) := by
  rw [Conn.send, done]
  simp only [conn.io.sendBin_disabled kernel packed.sent disabled]

end Send

/-- Storing a connection whose stream is longer by some bytes appends them. -/
theorem stored_appended (before writer : DirectWriter) (cid : UInt32) (ptr : Nat) (after : Conn)
    (bytes : Bytes) (inMap : writer.connMap.lookup cid = some ptr)
    (stream : after.stream = streamOf before ptr ++ bytes) :
    Appended before (writer.store ptr after) bytes :=
  ⟨cid, ptr, after, inMap, AList.lookup_insert _, stream⟩

/-- Storing what was there appends nothing. -/
theorem stored_unchanged (writer : DirectWriter) (ptr : Nat) (conn : Conn) (bytes : Bytes)
    (found : writer.heap.lookup ptr = some conn)
    (appended : Appended writer (writer.store ptr conn) bytes) : bytes = [] := by
  obtain ⟨cid, other, object, -, is, stream⟩ := appended
  change (writer.heap.insert ptr conn).lookup other = some object at is
  have same : streamOf writer other = object.stream := by
    rw [lookup_inserted] at is
    split at is
    · next here =>
        cases is
        rw [streamOf, here, found]
        rfl
    · rw [streamOf, is]
      rfl
  rw [same] at stream
  exact List.append_right_eq_self.mp stream.symm

/-! One call of `dispatch`. -/

theorem dispatched_route (writer : DirectWriter) (call : WriterCall) (sid : UInt64)
    (outgoing : Outgoing) (calls : dispatched call = some (sid, outgoing)) :
    ∃ connect kernel, directWriter call writer =
      ((writer.route sid outgoing connect kernel).1.map some,
        (writer.route sid outgoing connect kernel).2) := by
  cases call with
  | route sid' outgoing' connect kernel =>
      cases calls
      exact ⟨connect, kernel, rfl⟩
  | sendTo ipport outgoing' connect kernel =>
      rw [dispatched] at calls
      split at calls
      · next sid' server =>
          cases calls
          refine ⟨connect, kernel, ?_⟩
          simp only [directWriter, DirectWriter.sendTo, server]
      · cases calls
  | _ => cases calls

theorem answered_true (result : Except Exn Bool) :
    result.map some = .ok (some true) ↔ result = .ok true := by
  cases result with
  | error exn => exact ⟨fun is => (nomatch is), fun is => (nomatch is)⟩
  | ok sent =>
      constructor
      · intro is
        cases is
        rfl
      · intro is
        cases is
        rfl

section Route
variable (writer : DirectWriter) (outgoing : Outgoing) (kernel : Kernel)
  (sender packed : JsonSender)

/-- Sending by the id of a connection appends the message unless the connection
is disabled, and says true then as well. -/
theorem dispatchById_iff (cid : UInt32) (linked : Linked writer)
    (done : sender.endPack = some packed) (nonempty : packed.sent ≠ []) :
    ((writer.dispatchById kernel cid sender).1 = true →
        Appended writer (writer.dispatchById kernel cid sender).2 packed.sent) ↔
      ∀ ptr conn, writer.connMap.lookup cid = some ptr → writer.heap.lookup ptr = some conn →
        conn.isEnable = true := by
  rw [DirectWriter.dispatchById]
  cases inMap : writer.connMap.lookup cid with
  | none =>
      constructor
      · intro _ ptr conn found
        cases found
      · intro _ said
        cases said
  | some ptr =>
      obtain ⟨conn, found, -⟩ := linked.live cid ptr inMap
      simp only [found]
      cases enabled : conn.isEnable with
      | true =>
          -- A send that throws is answered with false, any other appends the message.
          constructor
          · intro _ ptr' conn' same is
            cases same
            rw [found] at is
            cases is
            exact enabled
          · intro _ said
            cases sent : conn.send kernel sender with
            | mk result after =>
                rw [sent] at said
                cases result with
                | error exn => cases said
                | ok _ =>
                    apply stored_appended writer writer cid ptr after packed.sent inMap
                    rw [streamOf, found]
                    exact send_ok kernel sender packed conn after done enabled sent
      | false =>
          -- `sendBin` returns at once, which is answered with true.
          rw [send_disabled kernel sender packed conn done enabled]
          constructor
          · intro appends
            exact absurd (stored_unchanged writer ptr conn packed.sent found (appends rfl)) nonempty
          · intro always
            rw [always ptr conn rfl found] at enabled
            cases enabled

/-- The first message to a server, on the connection that is made for it. -/
theorem opened_appends (sid : UInt64) (conn after : Conn) (linked : Linked writer)
    (enabled : conn.isEnable = true) (nothing : conn.stream = [])
    (done : sender.endPack = some packed) (sent : conn.send kernel sender = (.ok (), after)) :
    Appended writer ((opened writer sid conn).store writer.created after) packed.sent := by
  have unused : writer.heap.lookup writer.created = none := by
    cases is : writer.heap.lookup writer.created with
    | none => rfl
    | some object => exact absurd (linked.older _ object is) (Nat.lt_irrefl _)
  apply stored_appended writer _ conn.id writer.created after packed.sent
  · exact AList.lookup_insert _
  · rw [send_ok kernel sender packed conn after done enabled sent, nothing, streamOf, unused]
    rfl

theorem frame_ne_nil : frame outgoing ≠ [] := by
  intro empty
  have length := congrArg List.length empty
  rw [frame, List.length_append, headerBytes_length] at length
  exact absurd length (by
    rw [List.length_nil]
    omega)

theorem route_iff (sid : UInt64) (connect : Connect) (linked : Linked writer) :
    ((writer.route sid outgoing connect kernel).1 = .ok true →
        Appended writer (writer.route sid outgoing connect kernel).2 (frame outgoing)) ↔
      (HEADER_SIZE + outgoing.body.length ≤ 65536 * (16 * 1024) →
        ∀ cid ptr conn, writer._sid2cid.lookup sid = some cid →
          writer.connMap.lookup cid = some ptr → writer.heap.lookup ptr = some conn →
            conn.isEnable = true) := by
  simp only [DirectWriter.route, DirectWriter.dispatch]
  by_cases room : HEADER_SIZE + outgoing.body.length ≤ 65536 * (16 * 1024)
  · obtain ⟨sender, packed, made, done, is⟩ := make_packs outgoing room
    have nonempty := frame_ne_nil outgoing
    rw [← is] at nonempty ⊢
    rw [made, forall_prop_of_true room]
    cases isRouted : writer._sid2cid.lookup sid with
    | some cid =>
        have answer (sent : Bool) : (Except.ok sent : Except Exn Bool) = .ok true ↔ sent = true :=
          ⟨fun same => Except.ok.inj same, congrArg Except.ok⟩
        simp only [answer, dispatchById_iff writer kernel sender packed cid linked done nonempty]
        constructor
        · intro always cid' ptr conn same
          cases same
          exact always ptr conn
        · intro always ptr conn
          exact always cid ptr conn rfl
    | none =>
        -- The connection is made for this message, so it is enabled.
        refine ⟨fun _ _ _ _ found => absurd found (Option.some_ne_none _).symm, fun _ said => ?_⟩
        rcases connectServer_cases writer sid connect kernel (getAddressFromSId sid).1
          (getAddressFromSId sid).2 with refused | ⟨conn, -, -, enabled, nothing, begun⟩
        · simp only [refused] at said
          cases said
        · have found : (opened writer sid conn).heap.lookup writer.created = some conn :=
            AList.lookup_insert _
          simp only [begun, found] at said ⊢
          cases sent : conn.send kernel sender with
          | mk result after =>
              rw [sent] at said
              cases result with
              | error exn => cases said
              | ok _ =>
                  exact opened_appends writer kernel sender packed sid conn after linked enabled
                    nothing done sent
  · rw [make_too_long outgoing room]
    refine ⟨fun _ fits => absurd fits room, fun _ said => ?_⟩
    cases said

end Route

theorem delivers_iff (writer : DirectWriter) (call : WriterCall) (linked : Linked writer) :
    Delivers writer call ↔ Enabled writer call := by
  apply forall_congr'
  intro sid
  apply forall_congr'
  intro outgoing
  apply forall_congr'
  intro calls
  obtain ⟨connect, kernel, same⟩ := dispatched_route writer call sid outgoing calls
  rw [same, answered_true]
  exact route_iff writer outgoing kernel sid connect linked

theorem after_linked (writer : DirectWriter) (call : WriterCall) (linked : Linked writer) :
    Linked (after directWriter Program.perform writer call) :=
  call_linked writer call linked

/-- A message that fits is lost on a disabled connection. -/
theorem not_delivers (writer : DirectWriter) (call : WriterCall) (linked : Linked writer)
    (sid : UInt64) (outgoing : Outgoing) (calls : dispatched call = some (sid, outgoing))
    (fits : HEADER_SIZE + outgoing.body.length ≤ 65536 * (16 * 1024))
    (off : ((writer._sid2cid.lookup sid).bind fun cid => (writer.connMap.lookup cid).bind fun ptr =>
      (writer.heap.lookup ptr).map Conn.isEnable) = some false) : ¬ Delivers writer call := by
  intro delivers
  have enabled := (delivers_iff writer call linked).mp delivers sid outgoing calls fits
  obtain ⟨cid, isRouted, off⟩ := Option.bind_eq_some_iff.mp off
  obtain ⟨ptr, inMap, off⟩ := Option.bind_eq_some_iff.mp off
  obtain ⟨conn, is, off⟩ := Option.map_eq_some_iff.mp off
  rw [enabled cid ptr conn isRouted inMap is] at off
  cases off

/-- In every run, each `dispatch` that returns true has appended its frame
exactly when each message to a server with a disabled connection is too long. -/
theorem dispatched_appended_iff (calls : List WriterCall) :
    Throughout directWriter Program.perform Delivers DirectWriter.fresh calls ↔
      Throughout directWriter Program.perform Enabled DirectWriter.fresh calls := by
  apply throughout_congr directWriter Program.perform Linked fun _ => True
  · intro writer call linked _
    exact delivers_iff writer call linked
  · intro writer call linked _
    exact after_linked writer call linked
  · exact fresh_sound.linked
  · exact fun _ _ => trivial

/-- The third message to the node is lost: sending the second one failed, and
the connection is disabled. -/
def thirdLost : List WriterCall :=
  [.sendTo (ascii "127.0.0.1:8080") ⟨1, [65], 0⟩ (.begun true) (.takes 100),
    .sendTo (ascii "127.0.0.1:8080") ⟨1, [66], 0⟩ .refused (.fails 104),
    .sendTo (ascii "127.0.0.1:8080") ⟨1, [67], 0⟩ .refused (.takes 100)]

theorem thirdLost_not_appended :
    results directWriter Program.perform DirectWriter.fresh thirdLost =
        [.ok (some true), .ok (some false), .ok (some true)] ∧
      streamOf (runAll directWriter Program.perform DirectWriter.fresh thirdLost) 0 =
        frame ⟨1, [65], 0⟩ ∧
      ¬ Throughout directWriter Program.perform Delivers DirectWriter.fresh thirdLost := by
  refine ⟨by decide +kernel, by decide +kernel, ?_⟩
  rintro ⟨-, -, third, -⟩
  have server : serverOf (ascii "127.0.0.1:8080") = .ok (some 0x0100007f00001f90) := by
    decide +kernel
  refine not_delivers _ _ ?_ 0x0100007f00001f90 ⟨1, [67], 0⟩ ?_ ?_ ?_ third
  · exact after_linked _ _ (after_linked _ _ fresh_sound.linked)
  · rw [dispatched, server]
  · decide
  · decide +kernel

end FPayNode.RoutedFrames
