import TransactionalServer.Backup
import TransactionalServer.Library.Inbox

/-! The client's end of a replication connection. A session may write several
packets for one request; `sendReceive` reads one, into a buffer of its own, and
what had come with it is gone with the buffer. Packets come whole. -/

namespace TransactionalServer

/-- How the peer handles one echoed packet: its new state, and all the packets
that its session writes. -/
abbrev Replies (π : Type) := π → Bool → Text → Text → Exec (π × List Text)

/-- The peer, and what it has written that has not been read. `late` says of each
read to come how many packets arrive only after it. -/
structure Socket (π : Type) where
  peer : π
  unread : List Text := []
  late : Nat → Nat := fun _ => 0

namespace Socket

def answer {π : Type} (replies : Replies π) : Answer (Socket π) := fun socket io header data => do
  let (peer, packets) ← replies socket.peer io header data
  match Inbox.take (socket.late 0) (socket.unread ++ packets) with
  | none => return ({ socket with peer }, none)
  | some (reply, unread) => return ({ peer, unread, late := fun read => socket.late (read + 1) }, some reply)

end Socket

/-- The connection with what its client's end holds. -/
def Link.onSocket {π : Type} (link : Link π) (unread : List Text) (late : Nat → Nat) : Link (Socket π) :=
  { link with peer := { peer := link.peer, unread, late } }

def Server.onSocket {π : Type} (server : Server π) (unread : List Text) (late : Nat → Nat) : Server (Socket π) :=
  { server with link := server.link.onSocket unread late }

namespace Session

/-- All that the session of a server writes for one echoed packet. The connection
was opened with AUTH, so the session is authorized. -/
def serve {π : Type} (answer : Answer π) (fuel : Nat) (arrival : Backup.Arrival) : Replies (Server π) := fun server io header data => do
  let (header, payload) ← arrival header data
  let handled ← receive answer fuel { io } server true header payload
  let packets := handled.effects.filterMap fun
    | .send packet => some packet
    | _ => none
  return (handled.server, packets)

end Session

/-- `Backup.answer` with all the packets. -/
def Backup.replies (arrival : Backup.Arrival) : Replies Backup := Session.serve noPeer 0 arrival

end TransactionalServer
