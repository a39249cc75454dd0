import FPayNode.HandOver
import FPayNode.NodeProcess

/-!
The requests of the clients of a daemon. Its processes run the node over what
they read from the connections that they were handed; a connection of a sender of
the node itself always goes to the same worker.
-/

namespace FPayNode.WorkerRequests

open CommandProgram DecimalText ByteStream RedisCache Messages NodeService FrameDelivery
open SenderFrames RequestDispatch NodeRequests RequestJson NodeProcess Custody HandOver
open HandOver.Daemon
open WorkerRouting (Started Arrival peekUint32)

variable {Conn : Type} [DecidableEq Conn]

section Requests
variable (config : Config) (forms : Forms) (node : Nat → FPService) (throws : Bytes → Bool)
variable (around : Nat → Surroundings)

end Requests

/-- A `JsonSender` has the session that also stands for one that could not be
read, so that it does not matter how much of it had arrived. -/
theorem own_session (sent : List Message) (arrival : Arrival)
    (part : arrival.available <+: (sent.map Message.frame).flatten) :
    peekUint32 arrival = 0xFFFFFFFF := by
  by_cases enough : 4 ≤ arrival.available.length
  · cases sent with
    | nil =>
        have nothing := List.prefix_nil.mp part
        rw [nothing] at enough
        exact absurd enough (by decide)
    | cons message rest =>
        rw [List.map_cons, List.flatten_cons, Message.frame, headerBytes, List.append_assoc,
          List.append_assoc, List.append_assoc] at part
        exact WorkerRouting.peekUint32_arrived 0xFFFFFFFF arrival _ part enough
  · exact WorkerRouting.peekUint32_unread arrival (Nat.not_le.mp enough)

/-- Whatever happens to a daemon: a connection on which a sender of the node sends
is handed to processes of one worker, the same one in every run. The processes of
the other workers never have it. -/
theorem own_connections_at_one_worker (workers : UInt8) (some : 0 < workers)
    (outcome : Nat → Started) (events : List (Event Conn)) :
    ∃ daemon : Daemon Conn, (startWorker outcome workers.toNat).run events = .some daemon ∧
      ∀ (conn : Conn) (sent : List Message),
        sentOn conn events <+: (sent.map Message.frame).flatten →
        ∀ process, daemon.id process ≠ 0xFFFFFFFF % workers.toNat →
          conn ∉ daemon.descriptors (.channel process) ∧
            conn ∉ daemon.descriptors (.process process) ∧ daemon.heard process conn = [] := by
  obtain ⟨daemon, ran, -, owners, -⟩ := connections_handed_over_once workers some outcome events
  refine ⟨daemon, ran, fun conn sent own process elsewhere => ?_⟩
  have nothing : ¬ Has daemon process conn := by
    intro has
    obtain ⟨owner, -, -, placed⟩ := owners conn
    obtain ⟨-, arrival, part, place⟩ := placed process has
    rw [own_session sent arrival (part.trans own)] at place
    exact elsewhere place
  refine ⟨fun member => nothing (.inl member), fun member => nothing (.inr (.inl member)), ?_⟩
  by_contra something
  exact nothing (.inr (.inr something))

def aliceText : Bytes := nodeForms.query.toString ⟨ascii "alice"⟩

theorem aliceText_short : aliceText.length + 1 < 2 ^ 29 := by decide +kernel

def childAsks : Message := ⟨QueryBalance.uri, aliceText, aliceText_short⟩

/-- A child of the node and a wallet ask for the same balance. -/
def childAndWallet : List (Event Bool) :=
  [.onAccept true, .onAccept false, .arrives true childAsks.frame,
    .arrives false (askAlice 7).bytes, .masterRead false 4 .forked, .masterRead true 4 .forked,
    .recvFd 0 4 0, .recvFd 1 4 0, .reads 1 false 9, .reads 0 true 9]

theorem childAndWallet_sends :
    sentOn true childAndWallet <+: ([childAsks].map Message.frame).flatten := by
  decide +kernel

theorem own_connections_at_one_worker_childAndWallet :
    ∃ daemon : Daemon Bool, (startWorker (fun _ => .forked) 3).run childAndWallet = some daemon ∧
      ∀ process, daemon.id process ≠ 0 → daemon.heard process true = [] := by
  obtain ⟨daemon, ran, elsewhere⟩ := own_connections_at_one_worker 3 (by decide)
    (fun _ => .forked) childAndWallet
  exact ⟨daemon, ran, fun process different =>
    (elsewhere true [childAsks] childAndWallet_sends process different).2.2⟩

end FPayNode.WorkerRequests
