import TransactionalServer.Session

/-! The backup at the far end of a replication connection. It handles each
echoed packet as its own session does and the client reads the first answer. -/

namespace TransactionalServer

abbrev Backup := Server Unit

namespace Backup
open ServerTools

/-- What arrives for an echoed header and data: the header, and the payload
when there is one. -/
abbrev Arrival := Text → Text → Exec (Text × Option Text)

/-- A packet of `genEcho` as `handle_read` takes it off the stream. -/
def echoed : Arrival := fun header data => do
  let echoed ← Client.echoHeader header data
  return (echoed, if dataAttached echoed then some data else none)

/-- An encoding that loses no data: method, tsn, seq and data arrive as they
were sent. -/
def unchanged : Arrival := fun header data => do
  let echoed ← Client.echoHeader header data
  return (echoed, if needsData echoed then some data else none)

/-- A backup replicates to nobody. -/
def noPeer : Answer Unit := fun _ _ _ _ => .error .running

def firstPacket (effects : List Effect) : Option Text :=
  effects.findSome? fun
    | .send packet => some packet
    | _ => none

/-- The connection was opened with AUTH, so its session is authorized. Here what
the session writes for one packet is read at once: the client takes the first
packet of it and loses the others with its buffer (`Socket.answer` reads them at
any time). -/
def answer (arrival : Arrival) : Answer Backup := fun backup io header data => do
  let (header, payload) ← arrival header data
  let handled ← Session.receive noPeer 0 { io } backup true header payload
  return (handled.server, firstPacket handled.effects)

/-- The backup after a packet has reached it, its own file append succeeding. -/
def deliver (arrival : Arrival) (backup : Backup) (packet : Text × Text) : Exec Backup :=
  return (← answer arrival backup true packet.1 packet.2).1

end Backup
end TransactionalServer
